import NgxNdg.Rbtree.Model

/-!
# Lookup against traversal

Insertion orders the nodes by their keys alone, so a node with a key that is already in the tree
goes behind the others whatever its `x` is. The lookup turns at such nodes by `x`, and finds
only what stands on the side where it turns.

## Main definitions

- `OnSide`: a pair stands on the side of `x` past every node with its key
- `LookupAgrees`: lookup and traversal agree on a pair
- `RbtreeOp.Rising`: an operation that inserts no `x` below those of the same key
-/

namespace NgxNdg

open SearchTree

variable {t t' : BinaryTree InfoRbtreeNode} {op : RbtreeOp} {n : InfoRbtreeNode} {key : ℕ} {val : ℤ}

/-- A node with the key and the value stands in the tree. -/
def Stands (t : BinaryTree InfoRbtreeNode) (key : ℕ) (val : ℤ) : Prop :=
  Along (fun _ _ => True) ⟨key, val⟩ t

/-- A node with the key and the value stands, below each node with the same key, on the left if
its `x` is smaller and on the right if it is larger. -/
def OnSide (t : BinaryTree InfoRbtreeNode) (key : ℕ) (val : ℤ) : Prop :=
  Along (fun n side => n.key = key → compare val n.x = side) ⟨key, val⟩ t

/-- The lookup of a pair returns a node with it just when the traversal visits one. -/
def LookupAgrees (t : BinaryTree InfoRbtreeNode) (key : ℕ) (val : ℤ) : Prop :=
  (∃ n, infoRbtreeLookup t val key = some n ∧ n.key = key ∧ n.x = val) ↔
    ∃ n ∈ infoRbtreeTraverse t, n.key = key ∧ n.x = val

/-- An operation that inserts no node whose `x` is below that of a node with the same key. -/
def RbtreeOp.Rising (t : BinaryTree InfoRbtreeNode) : RbtreeOp → Prop
  | .insert n => ∀ b ∈ inorder t, b.key = n.key → b.x ≤ n.x
  | .delete _ => True

/-- Nodes with the same key are visited in the order of `x`. -/
def Climbs (t : BinaryTree InfoRbtreeNode) : Prop :=
  (inorder t).Pairwise fun a b => a.key = b.key → a.x ≤ b.x

/-- What a relation between the visited nodes needs of an insertion is enough for every step. -/
theorem RbtreeStep.pairwise {R : InfoRbtreeNode → InfoRbtreeNode → Prop}
    (hstep : RbtreeStep op t t') (hkey : KeyOrdered InfoRbtreeNode.key t)
    (h : (inorder t).Pairwise R)
    (hinsert : ∀ n, op = .insert n → ∀ b ∈ inorder t,
      (b.key ≤ n.key → R b n) ∧ (n.key < b.key → R n b)) : (inorder t').Pairwise R := by
  cases hstep with
  | insert n hrebalanced =>
    rw [← hrebalanced.inorder_eq]
    apply pairwise_insertLeaf hkey h
    · exact fun b hb => (hinsert n rfl b hb).1
    · exact fun b hb => (hinsert n rfl b hb).2
  | delete s r n ht ht' =>
    rw [ht']
    rw [ht] at h
    exact h.sublist ((List.sublist_cons_self n r).append_left s)

theorem RbtreeStep.keyOrdered (hstep : RbtreeStep op t t')
    (h : KeyOrdered InfoRbtreeNode.key t) : KeyOrdered InfoRbtreeNode.key t' := by
  apply hstep.pairwise h h
  intro n _ b _
  exact ⟨id, le_of_lt⟩

theorem RbtreeStep.climbs (hstep : RbtreeStep op t t') (hkey : KeyOrdered InfoRbtreeNode.key t)
    (h : Climbs t) (hrising : op.Rising t) : Climbs t' := by
  apply hstep.pairwise hkey h
  rintro n rfl b hb
  exact ⟨fun _ heq => hrising b hb heq, fun hlt heq => absurd heq hlt.ne⟩

theorem RbtreeReached.keyOrdered (h : RbtreeReached t) : KeyOrdered InfoRbtreeNode.key t := by
  induction h with
  | refl => exact List.Pairwise.nil
  | tail _ hstep ih =>
    obtain ⟨op, hstep⟩ := hstep
    exact hstep.keyOrdered ih

/-- The lookup finds a pair that stands on the side of `x`. -/
theorem infoRbtreeLookup_eq_some_iff (h : KeyOrdered InfoRbtreeNode.key t) :
    infoRbtreeLookup t val key = some n ↔ n = ⟨key, val⟩ ∧ OnSide t key val := by
  rw [infoRbtreeLookup_eq, search_then_iff h, compare_eq_iff_eq, eq_comm (a := val)]
  obtain ⟨k, x⟩ := n
  rw [InfoRbtreeNode.mk.injEq]
  refine and_congr_right fun hpair => ?_
  obtain ⟨rfl, rfl⟩ := hpair
  rfl

theorem mem_infoRbtreeTraverse_iff :
    (∃ n ∈ infoRbtreeTraverse t, n.key = key ∧ n.x = val) ↔ Stands t key val := by
  rw [Stands, along_true_iff, infoRbtreeTraverse_eq]
  constructor
  · rintro ⟨⟨k, x⟩, hmem, rfl, rfl⟩
    exact hmem
  · intro hmem
    exact ⟨⟨key, val⟩, hmem, rfl, rfl⟩

theorem OnSide.stands (h : OnSide t key val) : Stands t key val :=
  Along.mono h fun _ _ _ => trivial

/-- The lookup finds the pairs that stand on the side of `x`. -/
theorem exists_infoRbtreeLookup_iff (h : KeyOrdered InfoRbtreeNode.key t) :
    (∃ n, infoRbtreeLookup t val key = some n ∧ n.key = key ∧ n.x = val) ↔
      OnSide t key val := by
  constructor
  · rintro ⟨n, hlookup, -⟩
    exact ((infoRbtreeLookup_eq_some_iff h).mp hlookup).2
  · intro hside
    exact ⟨⟨key, val⟩, (infoRbtreeLookup_eq_some_iff h).mpr ⟨rfl, hside⟩, rfl, rfl⟩

/-- **Lookup.** On every tree that a run makes, lookup and traversal agree on a pair exactly when
the pair stands on the side of `x`, if it stands in the tree at all. -/
theorem lookup_agrees_iff (h : RbtreeReached t) (key : ℕ) (val : ℤ) :
    LookupAgrees t key val ↔ (Stands t key val → OnSide t key val) := by
  rw [LookupAgrees, exists_infoRbtreeLookup_iff h.keyOrdered, mem_infoRbtreeTraverse_iff]
  exact ⟨Iff.mpr, fun himp => ⟨OnSide.stands, himp⟩⟩

/-- The tree of the key `5` inserted with `x = 1` and then with `x = 0`. -/
def equalKeys : BinaryTree InfoRbtreeNode := .node ⟨5, 1⟩ .nil (.node ⟨5, 0⟩ .nil .nil)

theorem equalKeys_reached : RbtreeReached equalKeys := by
  apply Relation.ReflTransGen.tail (.single ⟨.insert ⟨5, 1⟩, .insert _ .refl⟩)
  exact ⟨.insert ⟨5, 0⟩, .insert _ .refl⟩

theorem lookup_agrees_iff_five :
    LookupAgrees equalKeys 5 1 ↔ (Stands equalKeys 5 1 → OnSide equalKeys 5 1) :=
  lookup_agrees_iff equalKeys_reached 5 1

/-- The traversal visits the node inserted last, and the lookup turns away from it. -/
theorem lookup_misses_equal_key : RbtreeReached equalKeys ∧ ¬ LookupAgrees equalKeys 5 0 := by
  refine ⟨equalKeys_reached, fun hagrees => ?_⟩
  have hvisited : ∃ n ∈ infoRbtreeTraverse equalKeys, n.key = 5 ∧ n.x = 0 :=
    ⟨⟨5, 0⟩, by decide, rfl, rfl⟩
  obtain ⟨n, hlookup, -⟩ := hagrees.mpr hvisited
  have hnone : infoRbtreeLookup equalKeys 0 5 = none := by decide
  rw [hnone] at hlookup
  exact nomatch hlookup

/-- Where equal keys are visited in the order of `x`, every pair of the tree stands on the side
of `x`. -/
theorem Climbs.onSide (h : Climbs t) (hstands : Stands t key val) : OnSide t key val := by
  have hx : ∀ n : InfoRbtreeNode, n ≠ ⟨key, val⟩ → n.key = key → n.x ≠ val := by
    rintro ⟨k, x⟩ hn rfl rfl
    exact hn rfl
  apply along_of_pairwise hstands.mem
  refine List.Pairwise.imp (fun {b c} hbc => ⟨?_, ?_⟩) h
  · rintro rfl
    refine or_iff_not_imp_left.mpr fun hb hkey => ?_
    exact compare_gt_iff_gt.mpr (lt_of_le_of_ne (hbc hkey) (hx b hb hkey))
  · rintro rfl
    refine or_iff_not_imp_left.mpr fun hc hkey => ?_
    exact compare_lt_iff_lt.mpr (lt_of_le_of_ne (hbc hkey.symm) (hx c hc hkey).symm)

/-- The trees of the runs that insert no `x` below those of the same key. -/
def RisingReached : BinaryTree InfoRbtreeNode → Prop :=
  Relation.ReflTransGen (fun t t' => ∃ op : RbtreeOp, op.Rising t ∧ RbtreeStep op t t') .nil

/-- In a run that inserts no `x` below those of the same key, lookup and traversal agree. -/
theorem RisingReached.lookup_agrees (h : RisingReached t) (key : ℕ) (val : ℤ) :
    LookupAgrees t key val := by
  have hinv : KeyOrdered InfoRbtreeNode.key t ∧ Climbs t := by
    induction h with
    | refl => exact ⟨List.Pairwise.nil, List.Pairwise.nil⟩
    | tail _ hstep ih =>
      obtain ⟨op, hrising, hstep⟩ := hstep
      exact ⟨hstep.keyOrdered ih.1, hstep.climbs ih.1 ih.2 hrising⟩
  rw [LookupAgrees, exists_infoRbtreeLookup_iff hinv.1, mem_infoRbtreeTraverse_iff]
  exact ⟨OnSide.stands, hinv.2.onSide⟩

end NgxNdg
