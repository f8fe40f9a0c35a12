import Mathlib.Data.List.MinMax
import Mathlib.Order.Lattice

/-!
# Stable orders

A list in the order of a key which, among the elements with one key, keeps the order of another
list. The other list says in which order the elements came.

## Main definitions

- `withKey key k L`: the elements of `L` with the key `k`, in the order of `L`
- `StableOrder key L T`: `T` has the elements of `L` in the order of the key, those with one key
  in the order of `L`

## Main results

- `StableOrder.snoc`, `StableOrder.erase`: the last element to come, and one that goes
- `StableOrder.eq_mergeSort`: there is one such list, the stable sort
- `StableOrder.head?_eq_argmin`: it begins with the first to come of those with the least key
-/

variable {α κ : Type*} [LinearOrder κ] {key : α → κ} {L M T s r : List α} {a : α} {k : κ}

/-- The elements with the key `k`, in the order of the list. -/
def withKey (key : α → κ) (k : κ) (L : List α) : List α := L.filter fun a => key a = k

/-- `T` has the elements of `L` in the order of the key, those with one key in the order of
`L`. -/
structure StableOrder (key : α → κ) (L T : List α) : Prop where
  sorted : T.Pairwise fun a b => key a ≤ key b
  same : ∀ k, withKey key k T = withKey key k L

@[simp] theorem withKey_nil : withKey key k [] = [] := rfl

@[simp] theorem withKey_append : withKey key k (L ++ M) = withKey key k L ++ withKey key k M :=
  List.filter_append L M

@[simp] theorem withKey_cons_self : withKey key (key a) (a :: L) = a :: withKey key (key a) L :=
  List.filter_cons_of_pos (decide_eq_true rfl)

theorem withKey_cons_of_ne (h : key a ≠ k) : withKey key k (a :: L) = withKey key k L :=
  List.filter_cons_of_neg fun hk => h (of_decide_eq_true hk)

theorem withKey_eq_nil_iff : withKey key k L = [] ↔ ∀ a ∈ L, key a ≠ k := by
  rw [withKey, List.filter_eq_nil_iff]
  exact forall₂_congr fun a _ => not_congr decide_eq_true_iff

/-- The first element with a key in a list. -/
theorem withKey_eq_cons (h : withKey key k L = a :: M) :
    ∃ L₁ L₂, L = L₁ ++ a :: L₂ ∧ withKey key k L₁ = [] ∧ key a = k ∧ withKey key k L₂ = M := by
  obtain ⟨L₁, L₂, rfl, hL₁, ha, hL₂⟩ := List.filter_eq_cons_iff.mp h
  exact ⟨L₁, L₂, rfl, List.filter_eq_nil_iff.mpr hL₁, of_decide_eq_true ha, hL₂⟩

namespace StableOrder

theorem nil : StableOrder key [] [] := ⟨List.Pairwise.nil, fun _ => rfl⟩

theorem perm (h : StableOrder key L T) : T.Perm L := by
  classical
  rw [List.perm_iff_count]
  intro a
  have hcount : ∀ M : List α, (withKey key (key a) M).count a = M.count a := fun M =>
    List.count_filter (decide_eq_true rfl)
  rw [← hcount T, h.same, hcount L]

/-- The last element to come goes behind those with a key up to its own. -/
theorem snoc (h : StableOrder key L (s ++ r)) (hs : ∀ b ∈ s, key b ≤ key a)
    (hr : ∀ b ∈ r, key a < key b) : StableOrder key (L ++ [a]) (s ++ a :: r) := by
  obtain ⟨hs', hr', hsr⟩ := List.pairwise_append.mp h.sorted
  constructor
  · have har : ∀ b ∈ r, key a ≤ key b := fun b hb => (hr b hb).le
    refine List.pairwise_append.mpr ⟨hs', List.pairwise_cons.mpr ⟨har, hr'⟩, fun b hb c hc => ?_⟩
    obtain rfl | hc := List.mem_cons.mp hc
    · exact hs b hb
    · exact hsr b hb c hc
  · intro k
    rw [withKey_append, withKey_append, ← h.same, withKey_append, List.append_assoc]
    congr 1
    by_cases hk : key a = k
    · subst hk
      have hnone : withKey key (key a) r = [] := by
        rw [withKey_eq_nil_iff]
        intro b hb
        exact (hr b hb).ne'
      rw [withKey_cons_self, withKey_cons_self, withKey_nil, hnone, List.nil_append]
    · rw [withKey_cons_of_ne hk, withKey_cons_of_ne hk, withKey_nil, List.append_nil]

/-- An element that goes leaves the order of the others as it was. -/
theorem erase (h : StableOrder key L (s ++ a :: r)) :
    ∃ L₁ L₂, L = L₁ ++ a :: L₂ ∧ StableOrder key (L₁ ++ L₂) (s ++ r) := by
  -- its place among the elements with its key says which element of `L` it is
  have hkey : withKey key (key a) L = withKey key (key a) s ++ a :: withKey key (key a) r := by
    rw [← h.same, withKey_append, withKey_cons_self]
  obtain ⟨L₁, M, rfl, hL₁, hM⟩ := List.filter_eq_append_iff.mp hkey
  obtain ⟨M₁, L₂, rfl, hM₁, -, hL₂⟩ := withKey_eq_cons hM
  refine ⟨L₁ ++ M₁, L₂, by rw [List.append_assoc], ?_, fun k => ?_⟩
  · exact h.sorted.sublist ((List.sublist_cons_self a r).append_left s)
  · by_cases hk : key a = k
    · subst hk
      rw [withKey_append, withKey_append, withKey_append, hM₁, hL₂, List.append_nil]
      exact congrArg (· ++ withKey key (key a) r) hL₁.symm
    · have hsame := h.same k
      rw [withKey_append, withKey_cons_of_ne hk, withKey_append, withKey_append,
        withKey_cons_of_ne hk] at hsame
      rw [withKey_append, hsame, withKey_append, withKey_append, List.append_assoc]

/-- The first element has the least key. -/
theorem head_le (h : StableOrder key L (a :: T)) : ∀ b ∈ L, key a ≤ key b := by
  intro b hb
  obtain rfl | hb := List.mem_cons.mp (h.perm.mem_iff.mpr hb)
  · exact le_rfl
  · exact (List.pairwise_cons.mp h.sorted).1 b hb

/-- Only one list is in the order of the key and keeps the order of `L`. -/
theorem unique {T' : List α} (h : StableOrder key L T) (h' : StableOrder key L T') : T = T' := by
  induction T generalizing L T' with
  | nil => exact (List.nil_perm.mp (h.perm.trans h'.perm.symm)).symm
  | cons a T ih =>
    cases T' with
    | nil => exact List.perm_nil.mp (h.perm.trans h'.perm.symm)
    | cons b T' =>
      have hkey : key b = key a := le_antisymm
        (h'.head_le a (h.perm.mem_iff.mp List.mem_cons_self))
        (h.head_le b (h'.perm.mem_iff.mp List.mem_cons_self))
      have hsame : ∀ k, withKey key k (b :: T') = withKey key k (a :: T) := fun k =>
        (h'.same k).trans (h.same k).symm
      have hfirst := hsame (key b)
      rw [withKey_cons_self, hkey, withKey_cons_self] at hfirst
      obtain ⟨rfl, -⟩ := List.cons.inj hfirst
      have hrest : StableOrder key T T' := by
        refine ⟨(List.pairwise_cons.mp h'.sorted).2, fun k => ?_⟩
        by_cases hk : key b = k
        · subst hk
          have hk := hsame (key b)
          rw [withKey_cons_self, withKey_cons_self] at hk
          exact (List.cons.inj hk).2
        · rw [← withKey_cons_of_ne hk, hsame, withKey_cons_of_ne hk]
      rw [ih ⟨(List.pairwise_cons.mp h.sorted).2, fun _ => rfl⟩ hrest]

theorem mergeSort (key : α → κ) (L : List α) :
    StableOrder key L (L.mergeSort fun a b => key a ≤ key b) := by
  have htrans : ∀ a b c : α, decide (key a ≤ key b) → decide (key b ≤ key c) →
      decide (key a ≤ key c) := by
    intro a b c hab hbc
    exact decide_eq_true ((of_decide_eq_true hab).trans (of_decide_eq_true hbc))
  have htotal : ∀ a b : α, (decide (key a ≤ key b) || decide (key b ≤ key a)) = true := by
    intro a b
    simpa using le_total (key a) (key b)
  constructor
  · exact (List.pairwise_mergeSort htrans htotal L).imp of_decide_eq_true
  · intro k
    have hequal : (withKey key k L).Pairwise fun a b => decide (key a ≤ key b) = true := by
      refine List.Pairwise.imp_of_mem ?_ (List.pairwise_of_forall fun _ _ => trivial)
      intro a b ha hb _
      rw [withKey, List.mem_filter, decide_eq_true_iff] at ha hb
      exact decide_eq_true (ha.2.trans hb.2.symm).le
    have hsub := (List.sublist_mergeSort htrans htotal hequal List.filter_sublist).filter
      fun a => key a = k
    rw [withKey, List.filter_filter] at hsub
    simp only [Bool.and_self] at hsub
    have hperm := (List.mergeSort_perm L fun a b => key a ≤ key b).filter fun a => key a = k
    exact (hsub.eq_of_length hperm.length_eq.symm).symm

/-- **Stable sort.** The list in the order of the key that keeps the order of `L` is the stable
sort of `L`. -/
theorem eq_mergeSort (h : StableOrder key L T) : T = L.mergeSort fun a b => key a ≤ key b :=
  h.unique (mergeSort key L)

/-- The first element is the first to come of those with the least key. -/
theorem head?_eq_argmin (h : StableOrder key L T) : T.head? = L.argmin key := by
  classical
  cases T with
  | nil => rw [List.nil_perm.mp h.perm, List.argmin_nil, List.head?_nil]
  | cons a T =>
    have hkey : withKey key (key a) L = a :: withKey key (key a) T := by
      rw [← h.same, withKey_cons_self]
    obtain ⟨L₁, L₂, hL, hL₁, -, -⟩ := withKey_eq_cons hkey
    have hafter : ∀ b ∈ L₁, key b ≠ key a := withKey_eq_nil_iff.mp hL₁
    rw [List.head?_cons, eq_comm, List.argmin_eq_some_iff]
    refine ⟨h.perm.mem_iff.mp List.mem_cons_self, h.head_le, fun b hb hba => ?_⟩
    have ha : a ∉ L₁ := fun ha => hafter a ha rfl
    have hb : b ∉ L₁ := fun hmem => hafter b hmem (le_antisymm hba (h.head_le b hb))
    rw [hL, List.idxOf_append_of_notMem ha, List.idxOf_append_of_notMem hb, List.idxOf_cons_self]
    omega

end StableOrder
