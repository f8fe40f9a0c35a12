import Mathlib.Data.List.TakeWhile

/-!
# The first marked element of a list

A predicate marks elements of a list. A list either has no mark or splits in exactly one
way at its first mark, and that split is what `takeWhile` and `dropWhile` compute.
-/

namespace FirstMark

variable {α : Type*} {mark : α → Bool}

/-- No element of the list is marked. -/
def Unmarked (mark : α → Bool) (l : List α) : Prop := ∀ x ∈ l, mark x = false

@[simp] theorem unmarked_nil : Unmarked mark [] := by simp [Unmarked]

@[simp] theorem unmarked_append {l l' : List α} :
    Unmarked mark (l ++ l') ↔ Unmarked mark l ∧ Unmarked mark l' := by
  simp [Unmarked, or_imp, forall_and]

@[simp] theorem unmarked_cons {x : α} {l : List α} :
    Unmarked mark (x :: l) ↔ mark x = false ∧ Unmarked mark l := by
  simp [Unmarked]

theorem unmarked_flatten {ls : List (List α)} :
    Unmarked mark ls.flatten ↔ ∀ l ∈ ls, Unmarked mark l := by
  simp only [Unmarked, List.mem_flatten]
  constructor
  · exact fun h l hl x hx => h x ⟨l, hl, hx⟩
  · rintro h x ⟨l, hl, hx⟩
    exact h l hl x hx

theorem dropWhile_of_unmarked {l : List α} (h : Unmarked mark l) :
    (l.dropWhile fun x => !mark x) = [] := by
  rw [List.dropWhile_eq_nil_iff]
  intro x hx
  simp [h x hx]

theorem dropWhile_split {pre post : List α} {x : α} (h : Unmarked mark pre) (hx : mark x = true) :
    ((pre ++ x :: post).dropWhile fun y => !mark y) = x :: post := by
  induction pre with
  | nil => simp [hx]
  | cons y pre ih =>
    rw [unmarked_cons] at h
    simp [h.1, ih h.2]

theorem takeWhile_split {pre post : List α} {x : α} (h : Unmarked mark pre) (hx : mark x = true) :
    ((pre ++ x :: post).takeWhile fun y => !mark y) = pre := by
  induction pre with
  | nil => simp [hx]
  | cons y pre ih =>
    rw [unmarked_cons] at h
    simp [h.1, ih h.2]

/-- Every list is unmarked or splits at its first mark. -/
theorem unmarked_or_split (mark : α → Bool) (l : List α) :
    Unmarked mark l ∨
      ∃ pre x post, l = pre ++ x :: post ∧ Unmarked mark pre ∧ mark x = true := by
  induction l with
  | nil => exact .inl unmarked_nil
  | cons x l ih =>
    cases hx : mark x with
    | true => exact .inr ⟨[], x, l, rfl, unmarked_nil, hx⟩
    | false =>
      obtain h | ⟨pre, y, post, rfl, hpre, hy⟩ := ih
      · exact .inl (unmarked_cons.mpr ⟨hx, h⟩)
      · exact .inr ⟨x :: pre, y, post, rfl, unmarked_cons.mpr ⟨hx, hpre⟩, hy⟩

/-- The split at the first mark is unique. -/
theorem split_unique {pre pre' post post' : List α} {x x' : α}
    (h : Unmarked mark pre) (hx : mark x = true) (h' : Unmarked mark pre') (hx' : mark x' = true)
    (heq : pre ++ x :: post = pre' ++ x' :: post') : pre = pre' ∧ x = x' ∧ post = post' := by
  have htake := congrArg (List.takeWhile fun y => !mark y) heq
  have hdrop := congrArg (List.dropWhile fun y => !mark y) heq
  rw [takeWhile_split h hx, takeWhile_split h' hx'] at htake
  rw [dropWhile_split h hx, dropWhile_split h' hx', List.cons.injEq] at hdrop
  exact ⟨htake, hdrop⟩

/-- A list of lists with a mark splits at the first list that has one. -/
theorem unmarked_or_split_flatten (mark : α → Bool) (ls : List (List α)) :
    Unmarked mark ls.flatten ∨
      ∃ ls₁ pre x post ls₂, ls = ls₁ ++ (pre ++ x :: post) :: ls₂ ∧ Unmarked mark ls₁.flatten ∧
        Unmarked mark pre ∧ mark x = true := by
  induction ls with
  | nil => exact .inl unmarked_nil
  | cons l ls ih =>
    obtain hl | ⟨pre, x, post, rfl, hpre, hx⟩ := unmarked_or_split mark l
    · obtain h | ⟨ls₁, pre, x, post, ls₂, rfl, hls, hpre, hx⟩ := ih
      · exact .inl (by simpa using ⟨hl, h⟩)
      · exact .inr ⟨l :: ls₁, pre, x, post, ls₂, rfl, by simpa using ⟨hl, hls⟩, hpre, hx⟩
    · exact .inr ⟨[], pre, x, post, ls, rfl, unmarked_nil, hpre, hx⟩

end FirstMark
