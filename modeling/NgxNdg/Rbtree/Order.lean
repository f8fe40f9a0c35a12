import NgxNdg.Lib.Run
import NgxNdg.Lib.StableOrder
import NgxNdg.Rbtree.Lookup

/-!
# The order of the visits

The tree as a register of the nodes in the order of their insertion. The traversal is the stable
sort of the register by the key, and the node that `ngx_rbtree_min` finds is the first inserted of
those with the least key, so that the nodes which are taken out as the least leave in the order in
which they came.

## Main definitions

- `RegisterStep`: an operation on the register
- `RbtreeRun`, `RegisterRun`: a sequence of operations on the tree and on the register
-/

namespace NgxNdg

open SearchTree Transition

variable {t t' : BinaryTree InfoRbtreeNode} {L : List InfoRbtreeNode} {op : RbtreeOp}

/-- An operation on the register: a node joins it at the end and leaves it from any place. -/
inductive RegisterStep : List InfoRbtreeNode → RbtreeOp → List InfoRbtreeNode → Prop
  | insert (L : List InfoRbtreeNode) (n : InfoRbtreeNode) : RegisterStep L (.insert n) (L ++ [n])
  | delete (L₁ L₂ : List InfoRbtreeNode) (n : InfoRbtreeNode) :
      RegisterStep (L₁ ++ n :: L₂) (.delete n) (L₁ ++ L₂)

/-- A sequence of operations on the empty tree. -/
def RbtreeRun (ops : List RbtreeOp) (t : BinaryTree InfoRbtreeNode) : Prop :=
  Runs (fun t op t' => RbtreeStep op t t') .nil ops t

/-- A sequence of operations on the empty register. -/
def RegisterRun (ops : List RbtreeOp) (L : List InfoRbtreeNode) : Prop :=
  Runs RegisterStep [] ops L

/-- An operation on the tree keeps the order of the visits that of the register, with an operation
on the register. -/
theorem RbtreeStep.keeps_order (hstep : RbtreeStep op t t')
    (h : StableOrder InfoRbtreeNode.key L (inorder t)) :
    ∃ L', RegisterStep L op L' ∧ StableOrder InfoRbtreeNode.key L' (inorder t') := by
  cases hstep with
  | insert n hrebalanced =>
    obtain ⟨s, r, hsplit, hinsert, hs, hr⟩ := insertLeaf_split h.sorted n
    refine ⟨L ++ [n], .insert L n, ?_⟩
    rw [← hrebalanced.inorder_eq, ngxRbtreeInsertValue, hinsert]
    rw [hsplit] at h
    exact h.snoc hs hr
  | delete s r n ht ht' =>
    rw [ht] at h
    obtain ⟨L₁, L₂, rfl, horder⟩ := h.erase
    refine ⟨L₁ ++ L₂, .delete L₁ L₂ n, ?_⟩
    rw [ht']
    exact horder

/-- The leftmost node is the first one of the visits. -/
theorem ngxRbtreeMin_eq (t : BinaryTree InfoRbtreeNode) :
    ngxRbtreeMin t = (inorder t).head? := by
  fun_induction ngxRbtreeMin t with
  | case1 => rfl
  | case2 n right => rfl
  | case3 n m left right right' ih =>
    have hne : inorder (.node m left right) ≠ [] :=
      List.append_ne_nil_of_right_ne_nil _ (List.cons_ne_nil m _)
    rw [ih, inorder.eq_def (.node n _ _), List.head?_append_of_ne_nil _ hne]

/-- **Order of the visits.** Behind any sequence of insertions and deletions, the traversal is the
stable sort of the register by the key, and `ngx_rbtree_min` finds the first inserted node of
those with the least key. -/
theorem rbtree_run_stable {ops : List RbtreeOp} (hrun : RbtreeRun ops t) :
    ∃ L, RegisterRun ops L ∧ infoRbtreeTraverse t = L.mergeSort (fun a b => a.key ≤ b.key) ∧
      ngxRbtreeMin t = L.argmin InfoRbtreeNode.key := by
  have hsim : ∀ t op t' L, RbtreeStep op t t' → StableOrder InfoRbtreeNode.key L (inorder t) →
      ∃ L', RegisterStep L op L' ∧ StableOrder InfoRbtreeNode.key L' (inorder t') :=
    fun _ _ _ _ hstep => hstep.keeps_order
  obtain ⟨L, hregister, horder⟩ := Runs.simulate hsim hrun StableOrder.nil
  refine ⟨L, hregister, ?_, ?_⟩
  · rw [infoRbtreeTraverse_eq]
    exact horder.eq_mergeSort
  · rw [ngxRbtreeMin_eq]
    exact horder.head?_eq_argmin

/-- Three insertions, the last one with a rotation, and the deletion of the least node. -/
theorem rotated_run :
    RbtreeRun [.insert ⟨0, 1⟩, .insert ⟨1, 2⟩, .insert ⟨2, 3⟩, .delete ⟨0, 1⟩]
      (.node ⟨1, 2⟩ .nil (.node ⟨2, 3⟩ .nil .nil)) := by
  have hrotation : Rebalanced
      (.node ⟨0, 1⟩ .nil (.node ⟨1, 2⟩ .nil (.node ⟨2, 3⟩ .nil .nil)) : BinaryTree InfoRbtreeNode)
      (.node ⟨1, 2⟩ (.node ⟨0, 1⟩ .nil .nil) (.node ⟨2, 3⟩ .nil .nil)) :=
    .single (.left _ _ _ _ _)
  refine Runs.cons (.insert _ .refl) (.cons (.insert _ .refl) (.cons (.insert _ hrotation) ?_))
  exact .cons (.delete [] _ ⟨0, 1⟩ rfl rfl) (.nil _)

theorem rbtree_run_stable_rotated :
    ∃ L, RegisterRun [.insert ⟨0, 1⟩, .insert ⟨1, 2⟩, .insert ⟨2, 3⟩, .delete ⟨0, 1⟩] L ∧
      infoRbtreeTraverse (.node ⟨1, 2⟩ .nil (.node ⟨2, 3⟩ .nil .nil)) =
        L.mergeSort (fun a b => a.key ≤ b.key) ∧
      ngxRbtreeMin (.node ⟨1, 2⟩ .nil (.node ⟨2, 3⟩ .nil .nil)) = L.argmin InfoRbtreeNode.key :=
  rbtree_run_stable rotated_run

end NgxNdg
