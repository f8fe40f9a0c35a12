import NgxNdg.Queue.Model

/-!
# Insertion before a link

`ngx_queue_insert_after` puts a link behind the one that its argument names, as long as the four
writes do not change what the argument evaluates to. The argument `(q)->prev` of
`ngx_queue_insert_before` is changed by the second write: the two writes behind it reach the new
link in place of the one before `q`.
-/

namespace NgxNdg

open LinkRing

variable {α : Type*} [DecidableEq α] {m : Links α} {a p q x : α} {l : List α}

/-- An argument that reads neither a previous link nor the next of the new one names the link
behind which the new one is put. -/
theorem ngxQueueInsertAfter_eq {h : QueueArg α} (hp : h m = p)
    (hkeep : ∀ prev, h ⟨Function.update m.next x (m.next p), prev⟩ = p) :
    ngxQueueInsertAfter h x m = m.linkAfter p x := by
  subst hp
  simp only [ngxQueueInsertAfter, Links.setNext, Links.setPrev, Links.linkAfter, hkeep,
    Function.update_self]

/-- A link inserted behind the head is the second of the queue. -/
theorem ngxQueueInsertAfter_head (h : IsRing m a (p :: l)) (hx : x ∉ a :: p :: l) :
    IsRing (ngxQueueInsertAfter (ngxQueueHead a) x m) a (p :: x :: l) := by
  have hhead : m.next a = p := (List.isChain_cons_cons.mp h.traversal).1
  have hxa : a ≠ x := fun hax => hx (hax ▸ List.mem_cons_self)
  rw [ngxQueueInsertAfter_eq hhead]
  · exact IsRing.linkAfter_getLast (s := [p]) h hx
  · intro prev
    show Function.update m.next x (m.next p) a = p
    rw [Function.update_of_ne hxa, hhead]

/-- With the link before `q` in a variable, `ngx_queue_insert_after` inserts before `q`. -/
theorem ngxQueueInsertAfter_prev (h : IsRing m a l) (hq : q ∈ a :: l) (hx : x ∉ a :: l) :
    InsertedBefore (ngxQueueInsertAfter (fun _ => m.prev q) x m) a l q x := by
  rw [ngxQueueInsertAfter_eq rfl fun _ => rfl]
  exact h.linkAfter_prev hq hx

/-- The heap behind `ngx_queue_insert_before`: the new link is linked to itself. -/
theorem ngxQueueInsertBefore_eq (hqx : q ≠ x) (hq : m.next (m.prev q) = q) :
    ngxQueueInsertBefore q x m =
      ⟨Function.update m.next x x, Function.update (Function.update m.prev q x) x x⟩ := by
  simp only [ngxQueueInsertBefore, ngxQueueInsertAfter, Links.setNext, Links.setPrev, hq,
    Function.update_self, Function.update_of_ne hqx, Function.update_idem]

/-- The forward traversal misses the new link. -/
theorem ngxQueueInsertBefore_traversal (h : IsRing m a l) (hq : q ∈ a :: l) (hx : x ∉ a :: l) :
    (a :: (l ++ [a])).IsChain fun b c => (ngxQueueInsertBefore q x m).next b = c := by
  have hne : ∀ b ∈ a :: l, b ≠ x := fun b hb hbx => hx (hbx ▸ hb)
  rw [ngxQueueInsertBefore_eq (hne q hq) (h.next_prev hq)]
  refine h.traversal.imp_of_mem_imp fun b c hb _ hbc => ?_
  show Function.update m.next x x b = c
  rw [Function.update_of_ne (hne b (mem_traversal_iff.mp hb)), hbc]

/-- The link before `q` is not the previous one of its next any more. -/
theorem ngxQueueInsertBefore_prev_next (h : IsRing m a l) (hq : q ∈ a :: l) (hx : x ∉ a :: l) :
    (ngxQueueInsertBefore q x m).prev ((ngxQueueInsertBefore q x m).next (m.prev q)) ≠
      m.prev q := by
  have hqx : q ≠ x := fun hqx => hx (hqx ▸ hq)
  have hpx : m.prev q ≠ x := fun hpx => hx (hpx ▸ h.prev_mem hq)
  rw [ngxQueueInsertBefore_eq hqx (h.next_prev hq)]
  show Function.update (Function.update m.prev q x) x x (Function.update m.next x x (m.prev q)) ≠ _
  rw [Function.update_of_ne hpx, h.next_prev hq, Function.update_of_ne hqx, Function.update_self]
  exact hpx.symm

/-- **No insertion.** The links never are a ring with the new link before `q`. -/
theorem insert_before_breaks_ring (h : IsRing m a l) (hq : q ∈ a :: l) (hx : x ∉ a :: l) :
    ¬ InsertedBefore (ngxQueueInsertBefore q x m) a l q x := by
  have hqx : q ≠ x := fun hqx => hx (hqx ▸ hq)
  intro hinserted
  have hnext := hinserted.next_eq
  rw [ngxQueueInsertBefore_eq hqx (h.next_prev hq)] at hnext
  exact hqx (hnext.symm.trans (Function.update_self x x m.next))

/-- The ring of the links `0`, `1` and `2`. -/
def threeLinks : Links ℕ where
  next n := (n + 1) % 3
  prev n := (n + 2) % 3

theorem threeLinks_isRing : IsRing threeLinks 0 [1, 2] := by
  constructor <;> decide

/-- Before the sentinel, where `ngx_queue_insert_tail` inserts. -/
theorem insert_before_breaks_ring_tail :
    ¬ InsertedBefore (ngxQueueInsertBefore 0 3 threeLinks) 0 [1, 2] 0 3 :=
  insert_before_breaks_ring threeLinks_isRing (by decide) (by decide)

/-- The link `3` inserted before `1` is linked to itself. -/
theorem insert_before_self_link :
    IsRing threeLinks 0 [1, 2] ∧ 1 ∈ [0, 1, 2] ∧ 3 ∉ [0, 1, 2] ∧
      ¬ InsertedBefore (ngxQueueInsertBefore 1 3 threeLinks) 0 [1, 2] 1 3 := by
  refine ⟨threeLinks_isRing, by decide, by decide, fun hinserted => ?_⟩
  have hnext : (ngxQueueInsertBefore 1 3 threeLinks).next 3 = 1 := hinserted.next_eq
  revert hnext
  decide

end NgxNdg
