import Mathlib.Data.Int.Order.Basic
import Mathlib.Data.Nat.Basic
import NgxNdg.Lib.SearchTree

/-!
# The red-black tree of `info_rbtree_node_t`

A subtree is a `BinaryTree`, with the sentinel for `nil`. The colours and the parent links, which
neither the lookup nor the traversal reads, are left out.

## Main definitions

- `infoRbtreeLookup`, `infoRbtreeTraverse`: the search and the traversal
- `ngxRbtreeMin`: the search for the least key
- `RbtreeStep`: an insertion or a deletion, with its rotations
- `RbtreeReached`: the trees after any run of them

## Design notes

Insertion and deletion are library code. What is assumed of them is that a new node becomes the
leaf of `ngx_rbtree_insert_value`, that a deletion takes one node out and keeps the order of the
others, and that rebalancing is a sequence of rotations.
-/

namespace NgxNdg

open SearchTree

/-- `info_rbtree_node_t`, with the key of its `node`. -/
structure InfoRbtreeNode where
  key : ℕ
  x : ℤ
  deriving DecidableEq, Repr

/-- The node that the search for a key and a value returns. -/
def infoRbtreeLookup : BinaryTree InfoRbtreeNode → ℤ → ℕ → Option InfoRbtreeNode
  | .nil, _, _ => none
  | .node n left right, val, key =>
    if key ≠ n.key then
      if key < n.key then infoRbtreeLookup left val key else infoRbtreeLookup right val key
    else if val ≠ n.x then
      if val < n.x then infoRbtreeLookup left val key else infoRbtreeLookup right val key
    else
      some n

/-- The nodes that the traversal visits, in order; it prints `x` of each. -/
def infoRbtreeTraverse : BinaryTree InfoRbtreeNode → List InfoRbtreeNode
  | .nil => []
  | .node n left right => infoRbtreeTraverse left ++ n :: infoRbtreeTraverse right

/-- `ngx_rbtree_min`: to the left as long as there is a node. The sentinel, from which the loop must
not start, has none. -/
def ngxRbtreeMin : BinaryTree InfoRbtreeNode → Option InfoRbtreeNode
  | .nil => none
  | .node n .nil _ => some n
  | .node _ (.node m left right) _ => ngxRbtreeMin (.node m left right)

/-- `ngx_rbtree_insert_value`: to the left when the key is smaller, to the right otherwise. -/
def ngxRbtreeInsertValue (temp : BinaryTree InfoRbtreeNode) (node : InfoRbtreeNode) :
    BinaryTree InfoRbtreeNode :=
  insertLeaf InfoRbtreeNode.key node temp

/-- An operation on the tree. -/
inductive RbtreeOp where
  | insert (node : InfoRbtreeNode)
  | delete (node : InfoRbtreeNode)

/-- The tree after an operation. -/
inductive RbtreeStep : RbtreeOp → BinaryTree InfoRbtreeNode → BinaryTree InfoRbtreeNode → Prop
  | insert {t t' : BinaryTree InfoRbtreeNode} (n : InfoRbtreeNode) :
      Rebalanced (ngxRbtreeInsertValue t n) t' → RbtreeStep (.insert n) t t'
  | delete {t t' : BinaryTree InfoRbtreeNode} (s r : List InfoRbtreeNode) (n : InfoRbtreeNode) :
      inorder t = s ++ n :: r → inorder t' = s ++ r → RbtreeStep (.delete n) t t'

/-- The trees that insertions and deletions make of the empty one. -/
def RbtreeReached : BinaryTree InfoRbtreeNode → Prop :=
  Relation.ReflTransGen (fun t t' => ∃ op, RbtreeStep op t t') .nil

/-- The traversal visits the nodes of the tree. -/
@[simp] theorem infoRbtreeTraverse_eq (t : BinaryTree InfoRbtreeNode) :
    infoRbtreeTraverse t = inorder t := by
  induction t with
  | nil => rfl
  | node n l r ihl ihr => rw [infoRbtreeTraverse, inorder, ihl, ihr]

/-- The lookup is a search by the key and then by `x`. -/
theorem infoRbtreeLookup_eq (t : BinaryTree InfoRbtreeNode) (val : ℤ) (key : ℕ) :
    infoRbtreeLookup t val key =
      search (fun n => (compare key n.key).then (compare val n.x)) t := by
  induction t with
  | nil => rfl
  | node n l r ihl ihr =>
    rw [infoRbtreeLookup, search, ihl, ihr]
    obtain hkey | rfl | hkey := lt_trichotomy key n.key
    · rw [if_pos hkey.ne, if_pos hkey, compare_lt_iff_lt.mpr hkey]
      rfl
    · rw [if_neg (not_not_intro rfl), compare_eq_iff_eq.mpr rfl]
      obtain hx | rfl | hx := lt_trichotomy val n.x
      · rw [if_pos hx.ne, if_pos hx, compare_lt_iff_lt.mpr hx]
        rfl
      · rw [if_neg (not_not_intro rfl), compare_eq_iff_eq.mpr rfl]
        rfl
      · rw [if_pos hx.ne', if_neg hx.not_gt, compare_gt_iff_gt.mpr hx]
        rfl
    · rw [if_pos hkey.ne', if_neg hkey.not_gt, compare_gt_iff_gt.mpr hkey]
      rfl

end NgxNdg
