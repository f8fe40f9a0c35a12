import NgxNdg.Lib.Memory

/-!
# Owners of cells

A ghost record says which block each cell of a memory belongs to. Cells that have an owner keep
it, and only the owner of a cell writes it, so that a write in one block leaves the others alone.

## Main definitions

- `Owns owner b s t`: the cells of `[s, t)` belong to the block `b`
- `claim`: the cells of an interval get an owner
- `Writes owner owner' b m m'`: from `m` to `m'` only cells of `b` are written, some of which may
  be new
-/

namespace Memory

variable {β γ : Type*} {owner owner' owner'' : ℕ → Option γ} {b c : γ} {s t x : ℕ}
  {m m' m'' : ℕ → β}

/-- The cells of `[s, t)` belong to `b`. -/
def Owns (owner : ℕ → Option γ) (b : γ) (s t : ℕ) : Prop :=
  ∀ x, s ≤ x → x < t → owner x = some b

/-- The cells of `[s, t)` get the owner `b`. -/
def claim (owner : ℕ → Option γ) (b : γ) (s t : ℕ) : ℕ → Option γ := fun x =>
  if s ≤ x ∧ x < t then some b else owner x

/-- From `m` to `m'` only cells of `b` are written, and no cell loses its owner. -/
structure Writes (owner owner' : ℕ → Option γ) (b : γ) (m m' : ℕ → β) : Prop where
  owners : ∀ x c, owner x = some c → owner' x = some c
  keeps : ∀ x, owner' x ≠ some b → m' x = m x

theorem owns_claim (owner : ℕ → Option γ) (b : γ) (s t : ℕ) : Owns (claim owner b s t) b s t :=
  fun _ hs ht => if_pos ⟨hs, ht⟩

theorem Owns.append {u : ℕ} (hst : Owns owner b s t) (htu : Owns owner b t u) :
    Owns owner b s u := by
  intro x hs hu
  obtain hlt | hle := lt_or_ge x t
  · exact hst x hs hlt
  · exact htu x hle hu

theorem claim_ne_none (h : claim owner b s t x ≠ none) : owner x ≠ none ∨ (s ≤ x ∧ x < t) := by
  by_cases hx : s ≤ x ∧ x < t
  · exact .inr hx
  · exact .inl (by rwa [claim, if_neg hx] at h)

theorem Writes.refl (owner : ℕ → Option γ) (b : γ) (m : ℕ → β) : Writes owner owner b m m :=
  ⟨fun _ _ hx => hx, fun _ _ => rfl⟩

/-- New cells are cells without an owner. -/
theorem Writes.claim (hfree : ∀ x, s ≤ x → x < t → owner x = none) (m : ℕ → β) :
    Writes owner (claim owner b s t) b m m where
  owners := by
    intro x c hx
    have hout : ¬ (s ≤ x ∧ x < t) := by
      rintro ⟨hs, ht⟩
      rw [hfree x hs ht] at hx
      cases hx
    rwa [Memory.claim, if_neg hout]
  keeps := fun _ _ => rfl

theorem Writes.fill {xs : List β} (h : Owns owner b s (s + xs.length)) (m : ℕ → β) :
    Writes owner owner b m (fill m s xs) where
  owners := fun _ _ hx => hx
  keeps := by
    intro x hx
    obtain hlt | hge := lt_or_ge x s
    · exact fill_of_lt hlt
    · refine fill_of_ge (not_lt.mp fun hlt => ?_)
      exact hx (h x hge hlt)

theorem Writes.update (h : owner x = some b) (y : β) (m : ℕ → β) :
    Writes owner owner b m (Function.update m x y) where
  owners := fun _ _ hx => hx
  keeps := by
    intro z hz
    refine Function.update_of_ne ?_ y m
    rintro rfl
    exact hz h

theorem Writes.trans (h : Writes owner owner' b m m') (h' : Writes owner' owner'' b m' m'') :
    Writes owner owner'' b m m'' where
  owners := fun x c hx => h'.owners x c (h.owners x c hx)
  keeps := by
    intro x hx
    have hx' : owner' x ≠ some b := fun hb => hx (h'.owners x b hb)
    rw [h'.keeps x hx, h.keeps x hx']

theorem Writes.owns (h : Writes owner owner' b m m') (hc : Owns owner c s t) :
    Owns owner' c s t :=
  fun x hs ht => h.owners x c (hc x hs ht)

/-- **Frame.** A write in one block leaves the cells of another one alone. -/
theorem Writes.cells (h : Writes owner owner' b m m') (hc : Owns owner c s t) (hne : c ≠ b) :
    cells m' s t = cells m s t := by
  refine cells_congr fun x hs ht => h.keeps x ?_
  rw [h.owners x c (hc x hs ht)]
  exact fun heq => hne (Option.some.inj heq)

end Memory
