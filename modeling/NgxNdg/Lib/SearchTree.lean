import Mathlib.Data.Tree.Basic
import Mathlib.Logic.Relation
import Mathlib.Order.Compare
import Mathlib.Order.Lattice

/-!
# Search trees

Binary trees whose nodes are visited in the order of a key, with equal keys allowed. A new node
becomes a leaf, and rotations keep the order of the visits.

## Main definitions

- `inorder`: the nodes of a tree in the order of the visits
- `Rebalanced`: any number of rotations
- `insertLeaf`: a new leaf, to the left of the larger keys and to the right of the others
- `search`: the search that a comparison with the visited node guides
- `Along`: a node stands in the tree, with a condition on the steps on the way to it

## Design notes

`search_eq_some_iff` says where a search finds a node: at the end of the steps that it takes. On
a tree in the order of the key, `search_then_iff` leaves of these steps only the ones past nodes
with the same key.
-/

namespace SearchTree

variable {α κ : Type*}

/-- The nodes of a tree in the order of the visits. -/
def inorder : BinaryTree α → List α
  | .nil => []
  | .node a l r => inorder l ++ a :: inorder r

/-- One rotation at some node of a tree. -/
inductive Rotation : BinaryTree α → BinaryTree α → Prop
  | left (a b : α) (t₁ t₂ t₃ : BinaryTree α) :
      Rotation (.node a t₁ (.node b t₂ t₃)) (.node b (.node a t₁ t₂) t₃)
  | right (a b : α) (t₁ t₂ t₃ : BinaryTree α) :
      Rotation (.node b (.node a t₁ t₂) t₃) (.node a t₁ (.node b t₂ t₃))
  | belowLeft (a : α) {l l' : BinaryTree α} (r : BinaryTree α) :
      Rotation l l' → Rotation (.node a l r) (.node a l' r)
  | belowRight (a : α) (l : BinaryTree α) {r r' : BinaryTree α} :
      Rotation r r' → Rotation (.node a l r) (.node a l r')

/-- A tree after any number of rotations. -/
def Rebalanced : BinaryTree α → BinaryTree α → Prop := Relation.ReflTransGen Rotation

/-- The search that goes on in the subtree of the outcome of a comparison. -/
def search (side : α → Ordering) : BinaryTree α → Option α
  | .nil => none
  | .node a l r =>
    match side a with
    | .lt => search side l
    | .eq => some a
    | .gt => search side r

/-- The node `a` stands in the tree, and each step on the way to it, past a node `b` to its
left or to its right, meets the condition `step b`. -/
inductive Along (step : α → Ordering → Prop) (a : α) : BinaryTree α → Prop
  | here (l r : BinaryTree α) : Along step a (.node a l r)
  | left {b : α} {l : BinaryTree α} (r : BinaryTree α) :
      step b .lt → Along step a l → Along step a (.node b l r)
  | right {b : α} (l : BinaryTree α) {r : BinaryTree α} :
      step b .gt → Along step a r → Along step a (.node b l r)

variable {a : α} {t t' : BinaryTree α} {step step' : α → Ordering → Prop}

theorem Rotation.inorder_eq (h : Rotation t t') : inorder t = inorder t' := by
  induction h with
  | left a b t₁ t₂ t₃ => simp [inorder]
  | right a b t₁ t₂ t₃ => simp [inorder]
  | belowLeft a r _ ih => rw [inorder, inorder, ih]
  | belowRight a l _ ih => rw [inorder, inorder, ih]

theorem Rebalanced.inorder_eq (h : Rebalanced t t') : inorder t = inorder t' := by
  induction h with
  | refl => rfl
  | tail _ hrotation ih => rw [ih, hrotation.inorder_eq]

theorem Along.mem (h : Along step a t) : a ∈ inorder t := by
  induction h with
  | here l r => exact List.mem_append_right _ List.mem_cons_self
  | left r _ _ ih => exact List.mem_append_left _ ih
  | right l _ _ ih => exact List.mem_append_right _ (List.mem_cons_of_mem _ ih)

theorem Along.mono (h : Along step a t) (himp : ∀ b s, step b s → step' b s) :
    Along step' a t := by
  induction h with
  | here l r => exact .here l r
  | left r hstep _ ih => exact .left r (himp _ _ hstep) ih
  | right l hstep _ ih => exact .right l (himp _ _ hstep) ih

/-- A node of a tree stands on the side of every other node to which the order of the visits
sends it. -/
theorem along_of_pairwise (ha : a ∈ inorder t)
    (h : (inorder t).Pairwise fun b c =>
      (c = a → b = a ∨ step b .gt) ∧ (b = a → c = a ∨ step c .lt)) : Along step a t := by
  induction t with
  | nil => exact nomatch ha
  | node b l r ihl ihr =>
    rw [inorder, List.pairwise_append, List.pairwise_cons] at h
    obtain ⟨hl, ⟨hbr, hr⟩, hlb⟩ := h
    obtain ha | ha := List.mem_append.mp ha
    · obtain rfl | hstep := (hlb a ha b List.mem_cons_self).2 rfl
      · exact .here l r
      · exact .left r hstep (ihl ha hl)
    obtain rfl | ha := List.mem_cons.mp ha
    · exact .here l r
    · obtain rfl | hstep := (hbr a ha).1 rfl
      · exact .here l r
      · exact .right l hstep (ihr ha hr)

theorem along_true_iff : Along (fun _ _ => True) a t ↔ a ∈ inorder t := by
  refine ⟨Along.mem, fun ha => along_of_pairwise ha ?_⟩
  exact List.pairwise_of_forall fun b c => ⟨fun _ => .inr trivial, fun _ => .inr trivial⟩

/-- A search finds the node that stands where its steps lead. -/
theorem search_eq_some_iff {side : α → Ordering} :
    search side t = some a ↔ side a = .eq ∧ Along (fun b s => side b = s) a t := by
  constructor
  · induction t with
    | nil => exact fun h => nomatch h
    | node b l r ihl ihr =>
      rw [search]
      intro h
      split at h
      case h_1 hb => exact (ihl h).imp_right (.left r hb)
      case h_2 hb =>
        obtain rfl := Option.some.inj h
        exact ⟨hb, .here l r⟩
      case h_3 hb => exact (ihr h).imp_right (.right l hb)
  · rintro ⟨ha, h⟩
    induction h with
    | here l r => rw [search, ha]
    | left r hb _ ih => rw [search, hb, ih]
    | right l hb _ ih => rw [search, hb, ih]

variable [LinearOrder κ] {key : α → κ}

/-- A tree whose nodes are visited in the order of the key. -/
def KeyOrdered (key : α → κ) (t : BinaryTree α) : Prop :=
  (inorder t).Pairwise fun a b => key a ≤ key b

/-- A new leaf, to the left of the larger keys and to the right of the others. -/
def insertLeaf (key : α → κ) (a : α) : BinaryTree α → BinaryTree α
  | .nil => .node a .nil .nil
  | .node b l r =>
    if key a < key b then .node b (insertLeaf key a l) r else .node b l (insertLeaf key a r)

theorem keyOrdered_node_iff {b : α} {l r : BinaryTree α} :
    KeyOrdered key (.node b l r) ↔ KeyOrdered key l ∧ KeyOrdered key r ∧
      (∀ c ∈ inorder l, key c ≤ key b) ∧ ∀ c ∈ inorder r, key b ≤ key c := by
  unfold KeyOrdered
  rw [inorder, List.pairwise_append, List.pairwise_cons]
  constructor
  · rintro ⟨hl, ⟨hb, hr⟩, hlr⟩
    exact ⟨hl, hr, fun c hc => hlr c hc b List.mem_cons_self, hb⟩
  · rintro ⟨hl, hr, hlb, hb⟩
    refine ⟨hl, ⟨hb, hr⟩, fun c hc d hd => ?_⟩
    obtain rfl | hd := List.mem_cons.mp hd
    · exact hlb c hc
    · exact (hlb c hc).trans (hb d hd)

/-- A new leaf is visited behind the nodes with a key up to its own, before the others. -/
theorem insertLeaf_split (h : KeyOrdered key t) (a : α) :
    ∃ s r, inorder t = s ++ r ∧ inorder (insertLeaf key a t) = s ++ a :: r ∧
      (∀ b ∈ s, key b ≤ key a) ∧ ∀ b ∈ r, key a < key b := by
  induction t with
  | nil => exact ⟨[], [], rfl, rfl, List.forall_mem_nil _, List.forall_mem_nil _⟩
  | node b l r ihl ihr =>
    obtain ⟨hl, hr, hlb, hbr⟩ := keyOrdered_node_iff.mp h
    rw [insertLeaf]
    split
    case isTrue hlt =>
      obtain ⟨s, u, hsu, hins, hs, hu⟩ := ihl hl
      refine ⟨s, u ++ b :: inorder r, ?_, ?_, hs, fun c hc => ?_⟩
      · rw [inorder, hsu, List.append_assoc]
      · rw [inorder, hins, List.append_assoc, List.cons_append]
      · obtain hc | hc := List.mem_append.mp hc
        · exact hu c hc
        · obtain rfl | hc := List.mem_cons.mp hc
          · exact hlt
          · exact hlt.trans_le (hbr c hc)
    case isFalse hge =>
      obtain ⟨s, u, hsu, hins, hs, hu⟩ := ihr hr
      have hba : key b ≤ key a := not_lt.mp hge
      refine ⟨inorder l ++ b :: s, u, ?_, ?_, fun c hc => ?_, hu⟩
      · rw [inorder, hsu, List.append_assoc, List.cons_append]
      · rw [inorder, hins, List.append_assoc, List.cons_append]
      · obtain hc | hc := List.mem_append.mp hc
        · exact (hlb c hc).trans hba
        · obtain rfl | hc := List.mem_cons.mp hc
          · exact hba
          · exact hs c hc

/-- A relation between the nodes in the order of the visits holds with a new leaf too, when it
relates to the leaf the nodes with a key up to its own, and the leaf to the others. -/
theorem pairwise_insertLeaf {R : α → α → Prop} (hkey : KeyOrdered key t)
    (h : (inorder t).Pairwise R) (hbefore : ∀ b ∈ inorder t, key b ≤ key a → R b a)
    (hbehind : ∀ b ∈ inorder t, key a < key b → R a b) :
    (inorder (insertLeaf key a t)).Pairwise R := by
  obtain ⟨s, r, hsplit, hinsert, hs, hr⟩ := insertLeaf_split hkey a
  rw [hsplit] at h hbefore hbehind
  rw [hinsert]
  obtain ⟨hsR, hrR, hsr⟩ := List.pairwise_append.mp h
  have hra : ∀ b ∈ r, R a b := fun b hb => hbehind b (List.mem_append_right s hb) (hr b hb)
  refine List.pairwise_append.mpr ⟨hsR, List.pairwise_cons.mpr ⟨hra, hrR⟩, fun b hb c hc => ?_⟩
  obtain rfl | hc := List.mem_cons.mp hc
  · exact hbefore b (List.mem_append_left r hb) (hs b hb)
  · exact hsr b hb c hc

/-- On a tree in the order of the key, the comparison of the keys takes the steps past the other
keys. -/
theorem Along.search_then {tie : α → Ordering} (h : KeyOrdered key t)
    (halong : Along (fun b s => key b = key a → tie b = s) a t) :
    Along (fun b s => (compare (key a) (key b)).then (tie b) = s) a t := by
  induction halong with
  | here l r => exact .here l r
  | @left b l r hstep hl ih =>
    obtain ⟨hordered, -, hle, -⟩ := keyOrdered_node_iff.mp h
    refine .left r ?_ (ih hordered)
    obtain hlt | heq := (hle a hl.mem).lt_or_eq
    · rw [compare_lt_iff_lt.mpr hlt]
      rfl
    · rw [compare_eq_iff_eq.mpr heq]
      exact hstep heq.symm
  | @right b l r hstep hr ih =>
    obtain ⟨-, hordered, -, hge⟩ := keyOrdered_node_iff.mp h
    refine .right l ?_ (ih hordered)
    obtain hlt | heq := (hge a hr.mem).lt_or_eq
    · rw [compare_gt_iff_gt.mpr hlt]
      rfl
    · rw [compare_eq_iff_eq.mpr heq.symm]
      exact hstep heq

/-- **Search by key and tie.** On a tree in the order of the key, the search finds a node that is
equal to what it looks for and stands, past each node with the same key, on the side of the
second comparison. -/
theorem search_then_iff {tie : α → Ordering} (h : KeyOrdered key t) {k : κ} :
    search (fun b => (compare k (key b)).then (tie b)) t = some a ↔
      (key a = k ∧ tie a = .eq) ∧ Along (fun b s => key b = k → tie b = s) a t := by
  rw [search_eq_some_iff, Ordering.then_eq_eq, compare_eq_iff_eq, eq_comm (a := k)]
  refine and_congr_right fun hfound => ?_
  obtain ⟨rfl, -⟩ := hfound
  constructor
  · intro halong
    refine halong.mono fun b s hstep hb => ?_
    rw [compare_eq_iff_eq.mpr hb.symm] at hstep
    exact hstep
  · intro halong
    exact halong.search_then h

end SearchTree
