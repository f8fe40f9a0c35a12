import NgxNdg.Each.Break
import NgxNdg.Lib.Run

/-!
# Queues as lists

The uses of the queue macros, on any number of queues in one heap, are operations on the lists of
the links in the queues. A use changes the list of one queue and leaves the other queues alone, and
the iteration meets what is in the list.

## Main definitions

- `QueueStep`: what a use of a macro does to the lists
- `QueueRun`: a sequence of uses
-/

namespace NgxNdg

open CLoop LinkRing

variable {α : Type*}

/-- The link is in no queue. -/
def Unused (rings : α → Option (List α)) (x : α) : Prop :=
  ∀ a l, rings a = some l → x ∉ a :: l

/-- What a use of a macro does to the lists of the queues: `rings h` is the list of the queue with
the head `h`. -/
inductive QueueStep [DecidableEq α] (rings : α → Option (List α)) :
    QueueOp α → (α → Option (List α)) → Prop where
  /-- a queue that is initialized again loses its links -/
  | init {q : α} : (∀ a l, rings a = some l → a ≠ q → q ∉ a :: l) →
      QueueStep rings (.init q) (Function.update rings q (some []))
  | insertHead {h x : α} {l : List α} : rings h = some l → Unused rings x →
      QueueStep rings (.insertHead h x) (Function.update rings h (some (x :: l)))
  | insertTail {h x : α} {l : List α} : rings h = some l → Unused rings x →
      QueueStep rings (.insertTail h x) (Function.update rings h (some (l ++ [x])))
  | insertAfter {h p x : α} {s r : List α} : rings h = some (s ++ p :: r) → Unused rings x →
      QueueStep rings (.insertAfter p x) (Function.update rings h (some (s ++ p :: x :: r)))
  | insertAfterHead {h p x : α} {r : List α} : rings h = some (p :: r) → Unused rings x →
      QueueStep rings (.insertAfterHead h x) (Function.update rings h (some (p :: x :: r)))
  | remove {h x : α} {s r : List α} : rings h = some (s ++ x :: r) →
      QueueStep rings (.remove x) (Function.update rings h (some (s ++ r)))

/-- A sequence of uses. -/
def QueueRun [DecidableEq α] :
    (α → Option (List α)) → List (QueueOp α) → (α → Option (List α)) → Prop :=
  Transition.Runs QueueStep

variable {rings rings' : α → Option (List α)} {h x : α} {l r s : List α}

/-- A link in no queue is apart from all of them. -/
theorem Unused.disjoint (hx : Unused rings x) {a : α} {l₁ : List α} (ha : rings a = some l₁)
    {t : List α} (hoff : (a :: l₁).Disjoint t) : (a :: l₁).Disjoint (x :: t) := by
  intro b hb hbt
  obtain rfl | hbt := List.mem_cons.mp hbt
  · exact hx a l₁ ha hb
  · exact hoff hb hbt

variable [DecidableEq α] {m : Links α}

theorem ngxQueueInit_isRing (q : α) (m : Links α) : IsRing (ngxQueueInit q m) q [] :=
  isRing_nil_iff.mpr ⟨Function.update_self _ _ _, Function.update_self _ _ _⟩

theorem ngxQueueInit_agreeOff (q : α) (m : Links α) : AgreeOff m (ngxQueueInit q m) [q] := by
  intro b hb
  have hne : b ≠ q := fun hbq => hb (hbq ▸ List.mem_cons_self)
  exact ⟨Function.update_of_ne hne _ _, Function.update_of_ne hne _ _⟩

/-- With the link in a variable, `ngx_queue_insert_after` puts the new one behind it. -/
theorem ngxQueueInsertAfter_var (p x : α) (m : Links α) :
    ngxQueueInsertAfter (fun _ => p) x m = m.linkAfter p x :=
  ngxQueueInsertAfter_eq rfl fun _ => rfl

/-- The four writes of `ngx_queue_insert_tail` put the link behind the last one. -/
theorem ngxQueueInsertTail_eq (hring : IsRing m h l) (hx : x ∉ h :: l) :
    ngxQueueInsertTail h x m = m.linkAfter (m.prev h) x := by
  have hxh : x ≠ h := fun hxh => hx (hxh ▸ List.mem_cons_self)
  have hlast : m.prev h ≠ x := fun hlx => hx (hlx ▸ hring.prev_mem List.mem_cons_self)
  have hnext : m.next (m.prev h) = h := hring.next_prev List.mem_cons_self
  apply Links.ext
  · show Function.update (Function.update m.next _ x) x h =
      Function.update (Function.update m.next x (m.next (m.prev h))) (m.prev h) x
    simp only [Links.setPrev, Function.update_self, hnext]
    rw [Function.update_comm hlast]
  · show Function.update (Function.update m.prev x (m.prev h)) h x =
      Function.update (Function.update m.prev (m.next (m.prev h)) x) x (m.prev h)
    rw [hnext, Function.update_comm hxh]

/-- The two writes of `ngx_queue_remove` take the link out. -/
theorem ngxQueueRemove_eq (hring : IsRing m h (s ++ x :: r)) :
    ngxQueueRemove x m = m.unlink x := by
  have hxh : x ≠ h := by
    rintro rfl
    exact (List.nodup_cons.mp hring.nodup).1 (List.mem_append_right s List.mem_cons_self)
  have hmem : x ∈ h :: (s ++ x :: r) :=
    List.mem_cons_of_mem h (List.mem_append_right s List.mem_cons_self)
  have hnext : m.next x ≠ x := by
    intro hself
    have hprev := hring.prev_next x hmem
    rw [hself] at hprev
    have hnil := hring.rotate.prev_eq_self_iff.mp hprev
    exact List.append_ne_nil_of_right_ne_nil r (List.cons_ne_nil h s) hnil
  show (m.setPrev (m.next x) (m.prev x)).setNext
    (Function.update m.prev (m.next x) (m.prev x) x) (m.next x) = m.unlink x
  rw [Function.update_of_ne hnext.symm]
  rfl

/-- A use of a macro keeps every queue a ring, over the list that the step says. -/
theorem QueueStep.keeps_rings {op : QueueOp α} (hstep : QueueStep rings op rings')
    (hrings : Rings m rings) : Rings (op.run m) rings' := by
  have happart : ∀ {h l}, rings h = some l → ∀ a l₁, rings a = some l₁ → a ≠ h →
      (a :: l₁).Disjoint (h :: l) := fun hl a l₁ ha hne => hrings.apart a l₁ _ _ ha hl hne
  cases hstep with
  | @init q hq =>
    refine hrings.update (ngxQueueInit_isRing q m) (ngxQueueInit_agreeOff q m) (fun _ hb => hb) ?_
    intro a l ha hne b hb hbq
    obtain rfl := List.mem_singleton.mp hbq
    exact hq a l ha hne hb
  | @insertHead h x l hl hx =>
    have hring := hrings.ring h l hl
    have hrun : (QueueOp.insertHead h x).run m = m.linkAfter h x :=
      ngxQueueInsertAfter_var h x m
    rw [hrun]
    refine hrings.update (hring.linkAfter (hx h l hl))
      (hring.agreeOff_linkAfter List.mem_cons_self) ?_ ?_
    · intro b hb
      exact (List.Perm.swap x h l).mem_iff.mp hb
    · intro a l₁ ha hne
      exact hx.disjoint ha (happart hl a l₁ ha hne)
  | @insertTail h x l hl hx =>
    have hring := hrings.ring h l hl
    have hrun : (QueueOp.insertTail h x).run m = m.linkAfter (m.prev h) x :=
      ngxQueueInsertTail_eq hring (hx h l hl)
    rw [hrun]
    refine hrings.update (hring.linkAfter_last (hx h l hl))
      (hring.agreeOff_linkAfter (hring.prev_mem List.mem_cons_self)) ?_ ?_
    · intro b hb
      simp only [List.mem_cons, List.mem_append, List.not_mem_nil, or_false] at hb ⊢
      tauto
    · intro a l₁ ha hne
      exact hx.disjoint ha (happart hl a l₁ ha hne)
  | @insertAfter h p x s r hl hx =>
    have hring := hrings.ring h _ hl
    have hrun : (QueueOp.insertAfter p x).run m = m.linkAfter p x :=
      ngxQueueInsertAfter_var p x m
    rw [hrun]
    refine hrings.update (hring.linkAfter_mem (hx h _ hl)) (hring.agreeOff_linkAfter ?_) ?_ ?_
    · simp
    · intro b hb
      simp only [List.mem_cons, List.mem_append] at hb ⊢
      tauto
    · intro a l₁ ha hne
      exact hx.disjoint ha (happart hl a l₁ ha hne)
  | @insertAfterHead h p x r hl hx =>
    have hring := hrings.ring h _ hl
    have hhead : m.next h = p := (List.isChain_cons_cons.mp hring.traversal).1
    have hxh : h ≠ x := fun hhx => hx h _ hl (hhx ▸ List.mem_cons_self)
    have hrun : (QueueOp.insertAfterHead h x).run m = m.linkAfter p x := by
      refine ngxQueueInsertAfter_eq hhead fun prev => ?_
      show Function.update m.next x (m.next p) h = p
      rw [Function.update_of_ne hxh, hhead]
    rw [hrun]
    refine hrings.update (hring.linkAfter_mem (s := []) (hx h _ hl))
      (hring.agreeOff_linkAfter ?_) ?_ ?_
    · simp
    · intro b hb
      simp only [List.mem_cons] at hb ⊢
      tauto
    · intro a l₁ ha hne
      exact hx.disjoint ha (happart hl a l₁ ha hne)
  | @remove h x s r hl =>
    have hring := hrings.ring h _ hl
    have hmem : x ∈ h :: (s ++ x :: r) :=
      List.mem_cons_of_mem h (List.mem_append_right s List.mem_cons_self)
    have hrun : (QueueOp.remove x).run m = m.unlink x := ngxQueueRemove_eq hring
    rw [hrun]
    refine hrings.update hring.unlink (hring.agreeOff_unlink hmem) ?_ ?_
    · intro b hb
      simp only [List.mem_cons, List.mem_append] at hb ⊢
      tauto
    · exact happart hl

theorem QueueRun.keeps_rings {ops : List (QueueOp α)} (hrun : QueueRun rings ops rings')
    (hrings : Rings m rings) : Rings (ops.foldl (fun m op => op.run m) m) rings' := by
  induction hrun generalizing m with
  | nil rings => exact hrings
  | cons hstep _ ih => exact ih (hstep.keeps_rings hrings)

/-- **Queues as lists.** Behind any sequence of uses of the queue macros on a heap without queues,
every queue is a ring over its list: it is empty just when the list is, its head and its last link
are those of the list, and an iteration runs its body on the data of the list up to the first
break. -/
theorem queue_run_refines {ops : List (QueueOp α)} (hrun : QueueRun (fun _ => none) ops rings)
    (m₀ : Links α) {h : α} {l : List α} (hl : rings h = some l) {β σ : Type*} (data : α → β)
    (body : σ → β → σ × Exit) (s : σ) :
    let m := ops.foldl (fun m op => op.run m) m₀
    IsRing m h l ∧ (ngxQueueEmpty h m = true ↔ l = []) ∧
      (∀ p r, l = p :: r → ngxQueueHead h m = p) ∧ (∀ r p, l = r ++ [p] → ngxQueueLast h m = p) ∧
      RunsOn (ngxQueueEach m h data) body s (upToBreak body s (l.map data)) := by
  intro m
  have hring : IsRing m h l := (hrun.keeps_rings (rings_none m₀)).ring h l hl
  refine ⟨hring, ?_, ?_, ?_, ngxQueueEach_runsOn hring data body s⟩
  · rw [ngxQueueEmpty, beq_iff_eq, eq_comm, hring.prev_eq_self_iff]
  · rintro p r rfl
    exact (List.isChain_cons_cons.mp hring.traversal).1
  · rintro r p rfl
    show m.prev h = p
    rw [hring.prev_sentinel]
    simp

/-- A heap with the queue `h` alone. -/
def oneQueue (h : α) (l : List α) : α → Option (List α) :=
  Function.update (fun _ => none) h (some l)

theorem oneQueue_self (h : α) (l : List α) : oneQueue h l h = some l := Function.update_self _ _ _

theorem update_oneQueue (h : α) (l l' : List α) :
    Function.update (oneQueue h l) h (some l') = oneQueue h l' := Function.update_idem _ _ _

theorem unused_oneQueue (hx : x ∉ h :: l) : Unused (oneQueue h l) x := by
  intro a l₁ ha
  by_cases hah : a = h
  · subst hah
    obtain rfl := Option.some.inj ((oneQueue_self a l).symm.trans ha)
    exact hx
  · rw [oneQueue, Function.update_of_ne hah] at ha
    cases ha

/-- The queue of the queue test, whose node with `x = i` has the link `i + 1`: three nodes at the
tail, one at the head, and the last one moved behind the head. -/
theorem queueTest_run : QueueRun (fun _ => none)
    [.init 0, .insertTail 0 1, .insertTail 0 2, .insertTail 0 3, .insertHead 0 4, .remove 3,
      .insertAfterHead 0 3] (oneQueue 0 [4, 3, 1, 2]) := by
  refine .cons (.init fun _ _ h => nomatch h) ?_
  refine .cons (.insertTail (oneQueue_self 0 []) (unused_oneQueue (by decide))) ?_
  rw [← oneQueue, update_oneQueue]
  refine .cons (.insertTail (oneQueue_self 0 _) (unused_oneQueue (by decide))) ?_
  rw [update_oneQueue]
  refine .cons (.insertTail (oneQueue_self 0 _) (unused_oneQueue (by decide))) ?_
  rw [update_oneQueue]
  refine .cons (.insertHead (oneQueue_self 0 _) (unused_oneQueue (by decide))) ?_
  rw [update_oneQueue]
  refine .cons (.remove (s := [4, 1, 2]) (r := []) (oneQueue_self 0 _)) ?_
  rw [update_oneQueue]
  refine .cons (.insertAfterHead (oneQueue_self 0 _) (unused_oneQueue (by decide))) ?_
  rw [update_oneQueue]
  exact .nil _

/-- The iteration of the queue test meets the nodes in the order of their `x`: 3, 2, 0 and 1. -/
theorem queue_run_refines_test :
    RunsOn (ngxQueueEach (List.foldl (fun m op => QueueOp.run op m) threeLinks
        [.init 0, .insertTail 0 1, .insertTail 0 2, .insertTail 0 3, .insertHead 0 4, .remove 3,
          .insertAfterHead 0 3]) 0 Nat.pred)
      (fun s _ => (s, .fallThrough)) () [3, 2, 0, 1] :=
  (queue_run_refines queueTest_run threeLinks (oneQueue_self 0 _) Nat.pred
    (fun s _ => (s, .fallThrough)) ()).2.2.2.2

end NgxNdg
