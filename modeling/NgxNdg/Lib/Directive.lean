import NgxNdg.Lib.Run

/-!
# Directives of a block

The directives of a block are handled one after the other, each by a step on the configuration
that may refuse it. A slot is a field that a directive may set once, a register is a field that a
directive overwrites, and a listing is a field that a directive appends to.

## Main definitions

- `Listing`, `Slot`, `Register`: how the directives act on a field

## Main results

- `Listing.exec`, `Slot.exec`, `Register.exec`: the fields behind the directives of a block
- `exists_exec_iff`: a block is accepted exactly when it sets no slot twice and each of its
  directives is well formed
-/

namespace Directive

open Transition

variable {σ δ α ι : Type*}

/-- The field that `sets` says the directives of has the values of all of them. -/
def Listing (step : σ → δ → Option σ) (field : σ → List α) (sets : δ → Option α) : Prop :=
  ∀ s d t, step s d = some t → field t = field s ++ (sets d).toList

/-- The field that `sets` says the directives of has a value from at most one of them. -/
def Slot (step : σ → δ → Option σ) (field : σ → Option α) (sets : δ → Option α) : Prop :=
  ∀ s d t, step s d = some t → (field t).toList = (field s).toList ++ (sets d).toList

/-- The field that `sets` says the directives of has the value of the last of them. -/
def Register (step : σ → δ → Option σ) (field : σ → Option α) (sets : δ → Option α) : Prop :=
  ∀ s d t, step s d = some t → field t = (sets d).or (field s)

variable {step : σ → δ → Option σ} {field : σ → Option α} {sets : δ → Option α} {s t : σ}
  {ds : List δ}

theorem filterMap_cons_toList (sets : δ → Option α) (d : δ) (ds : List δ) :
    (d :: ds).filterMap sets = (sets d).toList ++ ds.filterMap sets := by
  cases hd : sets d with
  | none => rw [List.filterMap_cons_none hd, Option.toList_none, List.nil_append]
  | some a => rw [List.filterMap_cons_some hd, Option.toList_some, List.singleton_append]

/-- A block adds the values that its directives set to those of the listing. -/
theorem Listing.exec {field : σ → List α} (h : Listing step field sets)
    (hexec : exec step s ds = some t) : field t = field s ++ ds.filterMap sets := by
  induction ds generalizing s with
  | nil =>
    obtain rfl := Option.some.inj hexec
    rw [List.filterMap_nil, List.append_nil]
  | cons d ds ih =>
    obtain ⟨u, hstep, hrest⟩ := Option.bind_eq_some_iff.mp hexec
    rw [ih hrest, h s d u hstep, filterMap_cons_toList, List.append_assoc]

theorem Slot.listing (h : Slot step field sets) : Listing step (fun s => (field s).toList) sets :=
  h

/-- A block adds the values that its directives set to the one that the slot has. -/
theorem Slot.exec (h : Slot step field sets) (hexec : Transition.exec step s ds = some t) :
    (field t).toList = (field s).toList ++ ds.filterMap sets :=
  h.listing.exec hexec

/-- A slot that is empty before the block has the value of its directive in the block. -/
theorem Slot.exec_of_none (h : Slot step field sets) (hs : field s = none)
    (hexec : Transition.exec step s ds = some t) : field t = (ds.filterMap sets).head? := by
  have hlist := h.exec hexec
  rw [hs, Option.toList_none, List.nil_append] at hlist
  rw [← hlist, Option.head?_toList]

/-- A block leaves in a register the value of its last directive. -/
theorem Register.exec (h : Register step field sets) (hexec : Transition.exec step s ds = some t) :
    field t = (ds.filterMap sets).getLast?.or (field s) := by
  induction ds generalizing s with
  | nil =>
    obtain rfl := Option.some.inj hexec
    rfl
  | cons d ds ih =>
    obtain ⟨u, hstep, hrest⟩ := Option.bind_eq_some_iff.mp hexec
    rw [ih hrest, h s d u hstep, ← Option.or_assoc, filterMap_cons_toList,
      List.getLast?_append]
    congr 2
    cases sets d with
    | none => rfl
    | some a => rfl

/-- **Accepted blocks.** When a step refuses the malformed directives and those that set a slot
again, and no others, a block is accepted exactly when its directives are well formed and set no
slot twice. -/
theorem exists_exec_iff {α : ι → Type*} {field : ∀ i, σ → Option (α i)}
    {sets : ∀ i, δ → Option (α i)} {wellFormed : δ → Prop}
    (hslot : ∀ i, Slot step (field i) (sets i))
    (haccept : ∀ s d, (∃ t, step s d = some t) ↔
      wellFormed d ∧ ∀ i, ((field i s).toList ++ (sets i d).toList).length ≤ 1) :
    (∃ t, exec step s ds = some t) ↔
      (∀ d ∈ ds, wellFormed d) ∧
        ∀ i, ((field i s).toList ++ ds.filterMap (sets i)).length ≤ 1 := by
  induction ds generalizing s with
  | nil =>
    refine iff_of_true ⟨s, rfl⟩ ⟨List.forall_mem_nil _, fun i => ?_⟩
    rw [List.filterMap_nil, List.append_nil]
    exact Option.length_toList_le
  | cons d ds ih =>
    simp only [filterMap_cons_toList, ← List.append_assoc]
    constructor
    · rintro ⟨t, hexec⟩
      obtain ⟨u, hstep, hrest⟩ := Option.bind_eq_some_iff.mp hexec
      obtain ⟨hwf, hlength⟩ := ih.mp ⟨t, hrest⟩
      refine ⟨List.forall_mem_cons.mpr ⟨((haccept s d).mp ⟨u, hstep⟩).1, hwf⟩, fun i => ?_⟩
      rw [← hslot i s d u hstep]
      exact hlength i
    · rintro ⟨hwf, hlength⟩
      obtain ⟨hd, hds⟩ := List.forall_mem_cons.mp hwf
      have hshort : ∀ i, ((field i s).toList ++ (sets i d).toList).length ≤ 1 := by
        intro i
        have hle := hlength i
        rw [List.length_append] at hle
        omega
      obtain ⟨u, hstep⟩ := (haccept s d).mpr ⟨hd, hshort⟩
      have hrest : ∀ i, ((field i u).toList ++ ds.filterMap (sets i)).length ≤ 1 := by
        intro i
        rw [hslot i s d u hstep]
        exact hlength i
      obtain ⟨t, hexec⟩ := ih.mpr ⟨hds, hrest⟩
      exact ⟨t, Option.bind_eq_some_iff.mpr ⟨u, hstep, hexec⟩⟩

end Directive
