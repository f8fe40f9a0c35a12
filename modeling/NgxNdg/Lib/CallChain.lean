import Mathlib.Data.List.Induction
import Mathlib.Data.List.Nodup
import Mathlib.Logic.Function.Basic

/-!
# Chains of calls

A chain is built from its end: who comes in saves the head of the chain in a variable of its own
and becomes the head. A call goes through the chain from the head on.

## Main definitions

- `CallChain.enter`: a member comes in
- `CallChain.calls`: the members that a call goes through, with fuel
- `CallChain.built`: the chain that the members of a list have made, one after the other
-/

/-- A chain: its head, and for each member the head that it has saved. -/
structure CallChain (μ : Type*) where
  top : Option μ
  next : μ → Option μ

namespace CallChain

variable {μ : Type*}

/-- The members that a call goes through from `x` on, or `none` when the fuel runs out. -/
def calls (c : CallChain μ) : ℕ → Option μ → Option (List μ)
  | 0, _ => none
  | _ + 1, none => some []
  | fuel + 1, some m => (c.calls fuel (c.next m)).map fun l => m :: l

variable {c : CallChain μ} {m : μ} {x : Option μ} {l ms : List μ} {fuel : ℕ}

/-- More fuel does not change a call. -/
theorem calls_unique {fuel' : ℕ} {l' : List μ} (h : c.calls fuel x = some l)
    (h' : c.calls fuel' x = some l') : l = l' := by
  induction fuel generalizing fuel' x l l' with
  | zero => cases h
  | succ fuel ih =>
    obtain _ | fuel' := fuel'
    · cases h'
    cases x with
    | none => exact Option.some.inj (h.symm.trans h')
    | some a =>
      obtain ⟨l₁, hl₁, rfl⟩ := Option.map_eq_some_iff.mp h
      obtain ⟨l₂, hl₂, rfl⟩ := Option.map_eq_some_iff.mp h'
      rw [ih hl₁ hl₂]

/-- What a call goes through from a member on is a call from it. -/
theorem calls_of_mem (h : c.calls fuel x = some l) (hm : m ∈ l) :
    ∃ fuel' l', l' <:+ l ∧ c.calls fuel' (some m) = some l' := by
  induction fuel generalizing x l with
  | zero => cases h
  | succ fuel ih =>
    cases x with
    | none =>
      obtain rfl := Option.some.inj h
      cases hm
    | some a =>
      obtain ⟨l', hl', rfl⟩ := Option.map_eq_some_iff.mp h
      obtain rfl | hm := List.mem_cons.mp hm
      · exact ⟨fuel + 1, _, List.suffix_rfl, h⟩
      · obtain ⟨fuel', l'', hsuffix, hcalls⟩ := ih hl' hm
        exact ⟨fuel', l'', hsuffix.trans (List.suffix_cons a l'), hcalls⟩

variable [DecidableEq μ]

/-- The member `m` saves the head and becomes the head. -/
def enter (c : CallChain μ) (m : μ) : CallChain μ where
  top := some m
  next := Function.update c.next m c.top

/-- The chain behind the members `ms`, from the empty one on. -/
def built (ms : List μ) : CallChain μ := ms.foldl enter ⟨none, fun _ => none⟩

theorem built_concat (ms : List μ) (m : μ) : built (ms ++ [m]) = (built ms).enter m := by
  rw [built, List.foldl_append]
  rfl

/-- A call that does not meet the new member goes its old way. -/
theorem calls_enter (h : m ∉ l) : (c.enter m).calls fuel x = some l ↔ c.calls fuel x = some l := by
  induction fuel generalizing x l with
  | zero => exact Iff.rfl
  | succ fuel ih =>
    cases x with
    | none => exact Iff.rfl
    | some a =>
      by_cases ha : a = m
      · -- on either side the call starts with `m`
        subst ha
        constructor
        · intro hcalls
          obtain ⟨l', -, rfl⟩ := Option.map_eq_some_iff.mp hcalls
          exact absurd List.mem_cons_self h
        · intro hcalls
          obtain ⟨l', -, rfl⟩ := Option.map_eq_some_iff.mp hcalls
          exact absurd List.mem_cons_self h
      · have hnext : (c.enter m).next a = c.next a := by
          unfold enter
          exact Function.update_of_ne ha _ _
        rw [calls, calls, hnext]
        constructor
        · intro hcalls
          obtain ⟨l', hl', rfl⟩ := Option.map_eq_some_iff.mp hcalls
          have hl := (ih fun hm => h (List.mem_cons_of_mem a hm)).mp hl'
          exact Option.map_eq_some_iff.mpr ⟨l', hl, rfl⟩
        · intro hcalls
          obtain ⟨l', hl', rfl⟩ := Option.map_eq_some_iff.mp hcalls
          have hl := (ih fun hm => h (List.mem_cons_of_mem a hm)).mpr hl'
          exact Option.map_eq_some_iff.mpr ⟨l', hl, rfl⟩

/-- A call goes through the member that has come in last and then its old way, which must not lead
to that member again. -/
theorem calls_enter_top :
    (c.enter m).calls (fuel + 1) (c.enter m).top = some l ↔
      ∃ l', l = m :: l' ∧ m ∉ l' ∧ c.calls fuel c.top = some l' := by
  have hnext : (c.enter m).next m = c.top := by
    unfold enter
    exact Function.update_self _ _ _
  constructor
  · intro h
    obtain ⟨l', hl', rfl⟩ := Option.map_eq_some_iff.mp h
    rw [hnext] at hl'
    have hm : m ∉ l' := by
      intro hm
      -- the call from `m` would be a part of itself
      obtain ⟨fuel', l'', hsuffix, hagain⟩ := calls_of_mem hl' hm
      have heq : m :: l' = l'' := calls_unique h hagain
      have hlength := hsuffix.length_le
      rw [← heq, List.length_cons] at hlength
      omega
    exact ⟨l', rfl, hm, (calls_enter hm).mp hl'⟩
  · rintro ⟨l', rfl, hm, hcalls⟩
    exact Option.map_eq_some_iff.mpr ⟨l', hnext ▸ (calls_enter hm).mpr hcalls, rfl⟩

/-- **Chain rule.** A call comes to the end of a chain exactly when nobody has come in twice; it
goes through the last one first. -/
theorem calls_built_iff (ms : List μ) :
    (∃ fuel, (built ms).calls fuel (built ms).top = some l) ↔ ms.Nodup ∧ l = ms.reverse := by
  induction ms using List.reverseRecOn generalizing l with
  | nil =>
    constructor
    · rintro ⟨_ | fuel, h⟩
      · cases h
      · exact ⟨List.nodup_nil, (Option.some.inj h).symm⟩
    · rintro ⟨-, rfl⟩
      exact ⟨1, rfl⟩
  | append_singleton ms m ih =>
    rw [built_concat, List.nodup_append_comm, List.singleton_append, List.nodup_cons,
      List.reverse_append, List.reverse_singleton, List.singleton_append]
    constructor
    · rintro ⟨_ | fuel, h⟩
      · cases h
      · obtain ⟨l', rfl, hm, hcalls⟩ := calls_enter_top.mp h
        obtain ⟨hnodup, rfl⟩ := ih.mp ⟨fuel, hcalls⟩
        exact ⟨⟨fun hmem => hm (List.mem_reverse.mpr hmem), hnodup⟩, rfl⟩
    · rintro ⟨⟨hm, hnodup⟩, rfl⟩
      obtain ⟨fuel, hcalls⟩ := ih.mpr ⟨hnodup, rfl⟩
      exact ⟨fuel + 1, calls_enter_top.mpr
        ⟨_, rfl, fun hmem => hm (List.mem_reverse.mp hmem), hcalls⟩⟩

end CallChain
