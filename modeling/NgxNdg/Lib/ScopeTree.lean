import Mathlib.Data.List.Basic

/-!
# Trees of nested scopes

A scope holds settings of its own and lies in the scopes around it. A tree of scopes is merged
from its root downwards: each scope is computed from its settings and from its parent, which has
been computed before it. A scope is addressed by the child indices on the way to it.

## Main definitions

- `Scope.label?`, `Scope.enclosing`: the label at an address, and the labels around it
- `Scope.map`, `Scope.traverse`: the labels of a tree taken over, with steps that may fail
- `mergeDown`: the merge from the root downwards
- `Inherited`: every scope has the value of the nearest setting around it

## Design notes

Addresses, not trees, are what navigation recurses on, so the facts about a scope are
inductions on its address and see the other scopes of the tree as parameters.
-/

namespace ScopeTree

/-- A scope and the scopes nested in it. -/
inductive Scope (α : Type*) where
  | node (label : α) (children : List (Scope α))

variable {α β γ : Type*}

/-- The label of the scope at an address. -/
def Scope.label? : Scope α → List ℕ → Option α
  | .node a _, [] => some a
  | .node _ ts, i :: p => ts[i]?.bind fun t => t.label? p

/-- The labels of the scope at an address and of the scopes around it, the innermost first. -/
def Scope.enclosing : Scope α → List ℕ → Option (List α)
  | .node a _, [] => some [a]
  | .node a ts, i :: p => ts[i]?.bind fun t => (t.enclosing p).map fun chain => chain ++ [a]

mutual

/-- The tree with the labels `f a`. -/
def Scope.map (f : α → β) : Scope α → Scope β
  | .node a ts => .node (f a) (mapAll f ts)

/-- The trees of a list with the labels `f a`. -/
def Scope.mapAll (f : α → β) : List (Scope α) → List (Scope β)
  | [] => []
  | t :: ts => t.map f :: mapAll f ts

end

mutual

/-- The tree with the labels that `f` makes, when it makes all of them. -/
def Scope.traverse (f : α → Option β) : Scope α → Option (Scope β)
  | .node a ts => (f a).bind fun b => (traverseAll f ts).map fun us => .node b us

/-- The trees of a list with the labels that `f` makes, when it makes all of them. -/
def Scope.traverseAll (f : α → Option β) : List (Scope α) → Option (List (Scope β))
  | [] => some []
  | t :: ts => (t.traverse f).bind fun u => (traverseAll f ts).map fun us => u :: us

end

mutual

/-- The scope of a tree and those below it, computed downwards behind the scope `parent`. -/
def mergeDown (merge : β → α → β) (parent : β) : Scope α → Scope β
  | .node a ts => .node (merge parent a) (mergeBelow merge (merge parent a) ts)

/-- The trees of a list, each computed behind the scope `parent`. -/
def mergeBelow (merge : β → α → β) (parent : β) : List (Scope α) → List (Scope β)
  | [] => []
  | t :: ts => mergeDown merge parent t :: mergeBelow merge parent ts

end

/-- A scope computed from its label and those of the scopes around it. -/
def mergeChain (merge : β → α → β) (parent : β) (chain : List α) : β :=
  chain.foldr (fun a b => merge b a) parent

/-- Every scope of `t` has in the computed tree the value of the nearest setting around it,
itself included, or the default when there is none. -/
def Inherited (merged : Scope β) (t : Scope α) (value : β → γ) (setting : α → Option γ)
    (default : γ) : Prop :=
  ∀ p chain, t.enclosing p = some chain →
    ∃ b, merged.label? p = some b ∧ value b = (chain.findSome? setting).getD default

/-- `a` is the label of a scope of the tree. -/
def Scope.Mem (t : Scope α) (a : α) : Prop := ∃ p, t.label? p = some a

variable {merge : β → α → β} {parent : β} {t : Scope α}

theorem mergeBelow_eq_map (merge : β → α → β) (parent : β) (ts : List (Scope α)) :
    mergeBelow merge parent ts = ts.map (mergeDown merge parent) := by
  induction ts with
  | nil => rfl
  | cons t ts ih => rw [mergeBelow, ih, List.map_cons]

/-- The computed scope at an address depends on the labels around the address alone. -/
theorem label?_mergeDown (t : Scope α) (p : List ℕ) :
    (mergeDown merge parent t).label? p = (t.enclosing p).map (mergeChain merge parent) := by
  induction p generalizing t parent with
  | nil =>
    obtain ⟨a, ts⟩ := t
    rfl
  | cons i p ih =>
    obtain ⟨a, ts⟩ := t
    rw [mergeDown, Scope.label?, Scope.enclosing, mergeBelow_eq_map, List.getElem?_map]
    cases ts[i]? with
    | none => rfl
    | some u =>
      rw [Option.map_some, Option.bind_some, Option.bind_some, ih, Option.map_map]
      congr 1
      funext chain
      simp [mergeChain]

theorem enclosing_ne_nil {p : List ℕ} {chain : List α} (h : t.enclosing p = some chain) :
    chain ≠ [] := by
  obtain ⟨a, ts⟩ := t
  cases p with
  | nil =>
    obtain rfl := Option.some.inj h
    exact List.cons_ne_nil _ _
  | cons i p =>
    obtain ⟨u, _, hu⟩ := Option.bind_eq_some_iff.mp h
    obtain ⟨below, _, rfl⟩ := Option.map_eq_some_iff.mp hu
    simp

/-- The value at a scope of the computed tree. -/
theorem inherited_iff_chain {value : β → γ} {setting : α → Option γ} {default : γ} :
    Inherited (mergeDown merge parent t) t value setting default ↔
      ∀ p chain, t.enclosing p = some chain →
        value (mergeChain merge parent chain) = (chain.findSome? setting).getD default := by
  refine forall_congr' fun p => forall_congr' fun chain => imp_congr_right fun h => ?_
  rw [label?_mergeDown, h, Option.map_some]
  simp

theorem mapAll_eq_map (f : α → β) (ts : List (Scope α)) :
    Scope.mapAll f ts = ts.map (Scope.map f) := by
  induction ts with
  | nil => rfl
  | cons t ts ih => rw [Scope.mapAll, ih, List.map_cons]

theorem label?_map (f : α → β) (t : Scope α) (p : List ℕ) :
    (t.map f).label? p = (t.label? p).map f := by
  induction p generalizing t with
  | nil =>
    obtain ⟨a, ts⟩ := t
    rfl
  | cons i p ih =>
    obtain ⟨a, ts⟩ := t
    rw [Scope.map, Scope.label?, Scope.label?, mapAll_eq_map, List.getElem?_map]
    cases ts[i]? with
    | none => rfl
    | some u => exact ih u

theorem enclosing_map (f : α → β) (t : Scope α) (p : List ℕ) :
    (t.map f).enclosing p = (t.enclosing p).map (List.map f) := by
  induction p generalizing t with
  | nil =>
    obtain ⟨a, ts⟩ := t
    rfl
  | cons i p ih =>
    obtain ⟨a, ts⟩ := t
    rw [Scope.map, Scope.enclosing, Scope.enclosing, mapAll_eq_map, List.getElem?_map]
    cases ts[i]? with
    | none => rfl
    | some u =>
      rw [Option.map_some, Option.bind_some, Option.bind_some, ih, Option.map_map, Option.map_map]
      congr 1
      funext chain
      rw [Function.comp_apply, Function.comp_apply, List.map_append, List.map_singleton]

/-- Scopes inherit when they do seen through `view`, from the settings `settings a`. -/
theorem inherited_map_iff {δ ε : Type*} {view : β → δ} {settings : α → ε} {value : δ → γ}
    {setting : ε → Option γ} {default : γ} {merged : Scope β} :
    Inherited (merged.map view) (t.map settings) value setting default ↔
      Inherited merged t (fun b => value (view b)) (fun a => setting (settings a)) default := by
  unfold Inherited
  refine forall_congr' fun p => ?_
  simp only [label?_map, enclosing_map, Option.map_eq_some_iff, forall_exists_index, and_imp,
    forall_apply_eq_imp_iff₂, List.findSome?_map]
  simp only [exists_exists_and_eq_and, Function.comp_def]

/-- **Inheriting merge.** When the merge takes the setting of the scope, or else what is in
effect in its parent, every scope inherits. -/
theorem inherited_of_merge {value : β → γ} (effect : β → γ) {setting : α → Option γ} {default : γ}
    (hmerge : ∀ b a, value (merge b a) = (setting a).getD (effect b))
    (heffect : ∀ b a, effect (merge b a) = value (merge b a)) (hparent : effect parent = default) :
    Inherited (mergeDown merge parent t) t value setting default := by
  have hchain : ∀ chain : List α,
      effect (mergeChain merge parent chain) = (chain.findSome? setting).getD default := by
    intro chain
    induction chain with
    | nil => exact hparent
    | cons a chain ih =>
      show effect (merge (mergeChain merge parent chain) a) = _
      rw [heffect, hmerge, ih, List.findSome?_cons]
      cases setting a <;> rfl
  rw [inherited_iff_chain]
  intro p chain h
  obtain ⟨a, rest, rfl⟩ := List.exists_cons_of_ne_nil (enclosing_ne_nil h)
  rw [← hchain]
  exact (heffect _ _).symm

/-- **Forgetting merge.** When the merge takes the setting of the scope or else the default, every
scope inherits exactly when the nearest setting around a scope without one, if any, is the
default. -/
theorem inherited_iff_of_forget {value : β → γ} {setting : α → Option γ} {default : γ}
    (hmerge : ∀ b a, value (merge b a) = (setting a).getD default) :
    Inherited (mergeDown merge parent t) t value setting default ↔
      ∀ p a rest, t.enclosing p = some (a :: rest) → setting a = none →
        ∀ v, rest.findSome? setting = some v → v = default := by
  have hvalue (a : α) (rest : List α) :
      value (mergeChain merge parent (a :: rest)) = (setting a).getD default := hmerge _ a
  rw [inherited_iff_chain]
  constructor
  · intro h p a rest hp hnone v hv
    have hinherited := h p _ hp
    rw [hvalue, List.findSome?_cons, hnone, hv] at hinherited
    exact hinherited.symm
  · intro h p chain hp
    obtain ⟨a, rest, rfl⟩ := List.exists_cons_of_ne_nil (enclosing_ne_nil hp)
    rw [hvalue, List.findSome?_cons]
    cases ha : setting a with
    | some v => rfl
    | none =>
      cases hrest : rest.findSome? setting with
      | none => rfl
      | some v => exact (h p a rest hp ha v hrest).symm

/-- A computed scope is the merge of its label with some scope. -/
theorem exists_of_label?_mergeDown {p : List ℕ} {b : β}
    (h : (mergeDown merge parent t).label? p = some b) :
    ∃ a prev, t.label? p = some a ∧ b = merge prev a := by
  induction p generalizing t parent with
  | nil =>
    obtain ⟨a, ts⟩ := t
    exact ⟨a, parent, rfl, (Option.some.inj h).symm⟩
  | cons i p ih =>
    obtain ⟨a, ts⟩ := t
    rw [mergeDown, Scope.label?, mergeBelow_eq_map, List.getElem?_map] at h
    obtain ⟨u', hu', h⟩ := Option.bind_eq_some_iff.mp h
    obtain ⟨u, hu, rfl⟩ := Option.map_eq_some_iff.mp hu'
    obtain ⟨a', prev, hlabel, hb⟩ := ih h
    exact ⟨a', prev, Option.bind_eq_some_iff.mpr ⟨u, hu, hlabel⟩, hb⟩

theorem exists_label?_mergeDown {p : List ℕ} {a : α} (h : t.label? p = some a) :
    ∃ prev, (mergeDown merge parent t).label? p = some (merge prev a) := by
  induction p generalizing t parent with
  | nil =>
    obtain ⟨b, ts⟩ := t
    obtain rfl := Option.some.inj h
    exact ⟨parent, rfl⟩
  | cons i p ih =>
    obtain ⟨b, ts⟩ := t
    obtain ⟨u, hu, h⟩ := Option.bind_eq_some_iff.mp h
    rw [mergeDown, Scope.label?, mergeBelow_eq_map, List.getElem?_map, hu]
    exact ih h

mutual

/-- **Two levels of a merge.** When a merge is seen through `view` as another one, so is the
merged tree. -/
theorem map_mergeDown {δ : Type*} {merge' : δ → α → δ} {view : β → δ}
    (h : ∀ b a, view (merge b a) = merge' (view b) a) (parent : β) (t : Scope α) :
    (mergeDown merge parent t).map view = mergeDown merge' (view parent) t := by
  match t with
  | .node a ts => rw [mergeDown, Scope.map, mergeDown, mapAll_mergeBelow h, h]

theorem mapAll_mergeBelow {δ : Type*} {merge' : δ → α → δ} {view : β → δ}
    (h : ∀ b a, view (merge b a) = merge' (view b) a) (parent : β) (ts : List (Scope α)) :
    Scope.mapAll view (mergeBelow merge parent ts) = mergeBelow merge' (view parent) ts := by
  match ts with
  | [] => rfl
  | t :: ts => rw [mergeBelow, Scope.mapAll, mergeBelow, map_mergeDown h, mapAll_mergeBelow h]

end

mutual

/-- A merge of the labels `f a` is a merge of the labels `a`. -/
theorem mergeDown_map {ε : Type*} (f : ε → α) (parent : β) (t : Scope ε) :
    mergeDown merge parent (t.map f) = mergeDown (fun b a => merge b (f a)) parent t := by
  match t with
  | .node a ts => rw [Scope.map, mergeDown, mergeDown, mergeBelow_mapAll]

theorem mergeBelow_mapAll {ε : Type*} (f : ε → α) (parent : β) (ts : List (Scope ε)) :
    mergeBelow merge parent (Scope.mapAll f ts) =
      mergeBelow (fun b a => merge b (f a)) parent ts := by
  match ts with
  | [] => rfl
  | t :: ts => rw [Scope.mapAll, mergeBelow, mergeBelow, mergeDown_map, mergeBelow_mapAll]

end

-- ════════════════════════════════════════════════════════════════════════
-- Traversals
-- ════════════════════════════════════════════════════════════════════════

theorem mem_node_iff {a b : α} {ts : List (Scope α)} :
    (Scope.node a ts).Mem b ↔ b = a ∨ ∃ t ∈ ts, t.Mem b := by
  constructor
  · rintro ⟨_ | ⟨i, p⟩, h⟩
    · exact .inl (Option.some.inj h).symm
    · obtain ⟨t, ht, h⟩ := Option.bind_eq_some_iff.mp h
      exact .inr ⟨t, List.mem_of_getElem? ht, p, h⟩
  · rintro (rfl | ⟨t, ht, p, h⟩)
    · exact ⟨[], rfl⟩
    · obtain ⟨i, hi⟩ := List.mem_iff_getElem?.mp ht
      exact ⟨i :: p, Option.bind_eq_some_iff.mpr ⟨t, hi, h⟩⟩

section Traverse

variable {f : α → Option β} {ok : α → Prop} {g : α → β}

mutual

/-- When the labels that `f` makes are `g a` for the labels `a` that are `ok`, a tree is traversed
when all of its labels are. -/
theorem traverse_eq_some_iff (h : ∀ a b, f a = some b ↔ ok a ∧ b = g a) (t : Scope α)
    (u : Scope β) : t.traverse f = some u ↔ (∀ a, t.Mem a → ok a) ∧ u = t.map g := by
  match t with
  | .node a ts =>
    simp only [Scope.traverse, Option.bind_eq_some_iff, Option.map_eq_some_iff, h,
      traverseAll_eq_some_iff h ts, mem_node_iff, Scope.map]
    constructor
    · rintro ⟨b, ⟨ha, rfl⟩, us, ⟨hts, rfl⟩, rfl⟩
      refine ⟨?_, rfl⟩
      rintro a' (rfl | ⟨t, ht, hmem⟩)
      · exact ha
      · exact hts t ht a' hmem
    · rintro ⟨hok, rfl⟩
      exact ⟨_, ⟨hok a (.inl rfl), rfl⟩, _,
        ⟨fun t ht a' hmem => hok a' (.inr ⟨t, ht, hmem⟩), rfl⟩, rfl⟩

theorem traverseAll_eq_some_iff (h : ∀ a b, f a = some b ↔ ok a ∧ b = g a) (ts : List (Scope α))
    (us : List (Scope β)) :
    Scope.traverseAll f ts = some us ↔
      (∀ t ∈ ts, ∀ a, t.Mem a → ok a) ∧ us = Scope.mapAll g ts := by
  match ts with
  | [] =>
    rw [Scope.traverseAll, Option.some.injEq]
    exact ⟨fun h => ⟨List.forall_mem_nil _, h.symm⟩, fun h => h.2.symm⟩
  | t :: ts =>
    simp only [Scope.traverseAll, Option.bind_eq_some_iff, Option.map_eq_some_iff,
      traverse_eq_some_iff h t, traverseAll_eq_some_iff h ts, List.forall_mem_cons, Scope.mapAll]
    constructor
    · rintro ⟨u, ⟨ht, rfl⟩, us, ⟨hts, rfl⟩, rfl⟩
      exact ⟨⟨ht, hts⟩, rfl⟩
    · rintro ⟨⟨ht, hts⟩, rfl⟩
      exact ⟨_, ⟨ht, rfl⟩, _, ⟨hts, rfl⟩, rfl⟩

end

end Traverse

end ScopeTree
