import NgxNdg.Lib.Ledger
import NgxNdg.Lib.Run
import NgxNdg.Thread.Model

/-!
# The references of the thread offload

Every task between its post and its event handler holds one `blocked` and one `count` of
its main request. The two counters are ledgers of the posted tasks; the file shows what each
handler does to them and that a run keeps them balanced exactly when

- no post fails after the counters were raised, and no call that fails before has taken a
  reference for the body of its request,
- the 8 bits of `blocked` are enough for the tasks of a main request, and
- the chain link of every response is allocated.

## Main definitions

- `RefsBalanced`: the counters and the history of a worker agree with the posted tasks
- `NoLeak`: the outcomes of a step under which it keeps them so
-/

namespace NgxNdg

open Ledger Transition

/-- The main request a task holds its references of. -/
def taskMain (main : ℕ → ℕ) (t : NgxThreadTask) : ℕ := main t.ctx.r

instance MainRefs.neZero_one : NeZero (1 : BitVec 16) := ⟨by decide⟩

/-- The references of a main request, beside the one for a body that is thrown away. -/
def MainRefs.taken (refs : MainRefs) : BitVec 16 :=
  refs.count - if refs.discardBody then 1 else 0

/-- `blocked` is the number of the posted tasks of each main request, and the references taken
exceed `count₀` by that number; no call that returned `NGX_ERROR` has changed the counters; the
task of a call that returned `NGX_DONE` is finalized once as soon as its event handler has
run. -/
structure RefsBalanced (main : ℕ → ℕ) (count₀ : ℕ → BitVec 16) (s : ThreadState) : Prop where
  blocked : ∀ m, (s.refs m).blocked.toNat = load (taskMain main) s.posted m
  count : Balanced (taskMain main) (fun m => (s.refs m).taken - count₀ m) s.posted
  errors : ∀ c ∈ s.calls, c.rc = ngxError →
    c.exit.blocked = c.entry.blocked ∧ c.exit.count = c.entry.count
  finalized : ∀ c ∈ s.calls, c.rc = ngxDone →
    s.finalized.count c.task = if c.task ∈ s.posted.map NgxThreadTask.id then 0 else 1

/-- The pool, the task and its buffer are obtained. -/
def ThreadHandlerOutcomes.Obtains (o : ThreadHandlerOutcomes) : Prop :=
  o.pool = true ∧ o.task = true ∧ o.buf = true

/-- The call takes a reference for the body: a part of the body of a main request has not
arrived, and no earlier call waits for it. -/
def ThreadHandlerOutcomes.TakesBody (o : ThreadHandlerOutcomes) (isMain : Bool) (refs : MainRefs) :
    Prop :=
  isMain = true ∧ refs.discardBody = false ∧ o.pending = true

/-- A call that obtains its task posts it, and `blocked` has room for it; one that does not
obtain it takes no reference for the body. A chain link that is needed is allocated. -/
def NoLeak (main : ℕ → ℕ) (s : ThreadState) : ThreadEvent → Prop
  | .call r o =>
    (o.Obtains → o.post = true ∧ load (taskMain main) s.posted (main r) < 255) ∧
      (¬ o.Obtains → ¬ o.TakesBody (main r == r) (s.refs (main r)))
  | .runTask _ => True
  | .complete _ o => o.sendsBody → o.link
  | .discarded _ => True

/-- A posted task has its buffer, and nothing has failed in it. -/
def ThreadReady (s : ThreadState) : Prop :=
  ∀ t ∈ s.posted, t.ctx.rc = ngxOk ∧ t.ctx.buf.isSome

/-- What the balance rests on: task ids are used once, and a posted task has its buffer. -/
structure ThreadInv (main : ℕ → ℕ) (count₀ : ℕ → BitVec 16) (s : ThreadState) : Prop
    extends RefsBalanced main count₀ s where
  ids : (s.posted.map NgxThreadTask.id).Nodup
  postedIds : ∀ t ∈ s.posted, t.id < s.nextTask
  callIds : ∀ c ∈ s.calls, c.task < s.nextTask
  finalizedIds : ∀ i ∈ s.finalized, i < s.nextTask
  ready : ∀ t ∈ s.posted, t.ctx.rc = ngxOk ∧ t.ctx.buf.isSome

@[simp] theorem discardRequestBody_blocked (isMain pending : Bool) (refs : MainRefs) :
    (ngxHttpDiscardRequestBody isMain pending refs).blocked = refs.blocked := by
  unfold ngxHttpDiscardRequestBody
  split <;> rfl

@[simp] theorem discardRequestBody_taken (isMain pending : Bool) (refs : MainRefs) :
    (ngxHttpDiscardRequestBody isMain pending refs).taken = refs.taken := by
  obtain ⟨blocked, count, discardBody⟩ := refs
  unfold ngxHttpDiscardRequestBody
  cases isMain <;> cases discardBody <;> cases pending <;> simp [MainRefs.taken]

theorem discardRequestBody_count_iff (o : ThreadHandlerOutcomes) (isMain : Bool)
    (refs : MainRefs) :
    (ngxHttpDiscardRequestBody isMain o.pending refs).count = refs.count ↔
      ¬ o.TakesBody isMain refs := by
  obtain ⟨pending, pool, task, buf, post⟩ := o
  obtain ⟨blocked, count, discardBody⟩ := refs
  unfold ngxHttpDiscardRequestBody
  cases isMain <;> cases discardBody <;> cases pending <;>
    simp [ThreadHandlerOutcomes.TakesBody]

/-- One reference of each kind more. -/
def MainRefs.raised (refs : MainRefs) : MainRefs :=
  { refs with blocked := refs.blocked + 1, count := refs.count + 1 }

@[simp] theorem MainRefs.raised_blocked (refs : MainRefs) :
    refs.raised.blocked = refs.blocked + 1 := rfl

@[simp] theorem MainRefs.raised_taken (refs : MainRefs) : refs.raised.taken = refs.taken + 1 :=
  add_sub_right_comm ..

theorem MainRefs.lowered_taken (refs : MainRefs) (blocked : BitVec 8) :
    ({ refs with blocked := blocked, count := refs.count - 1 } : MainRefs).taken =
      refs.taken + -1 := by
  rw [← sub_eq_add_neg]
  exact sub_right_comm ..

/-- The request handler obtains no task, fails to post it, or posts it. -/
theorem threadHandler_cases (o : ThreadHandlerOutcomes) (id r : ℕ) (isMain : Bool) (pool : NgxPool)
    (main : MainRefs) :
    (¬ o.Obtains ∧ ngxHttpNdgThreadHandler o id r isMain pool main =
      (pool, ngxHttpDiscardRequestBody isMain o.pending main, none, ngxError)) ∨
    (o.Obtains ∧ o.post = false ∧ ∃ pool', ngxHttpNdgThreadHandler o id r isMain pool main =
      (pool', (ngxHttpDiscardRequestBody isMain o.pending main).raised, none, ngxError)) ∨
    (o.Obtains ∧ o.post = true ∧ ∃ pool' task, ngxHttpNdgThreadHandler o id r isMain pool main =
      (pool', (ngxHttpDiscardRequestBody isMain o.pending main).raised, some task, ngxDone) ∧
      task.id = id ∧ task.ctx.r = r ∧ task.ctx.rc = ngxOk ∧ task.ctx.buf.isSome) := by
  obtain ⟨pending, hpool, htask, hbuf, hpost⟩ := o
  unfold ngxHttpNdgThreadHandler
  cases hpool
  · exact .inl ⟨fun h => Bool.false_ne_true h.1, rfl⟩
  cases htask
  · exact .inl ⟨fun h => Bool.false_ne_true h.2.1, rfl⟩
  cases hbuf
  · exact .inl ⟨fun h => Bool.false_ne_true h.2.2, rfl⟩
  cases hpost
  · exact .inr (.inl ⟨⟨rfl, rfl, rfl⟩, rfl, _, rfl⟩)
  · exact .inr (.inr ⟨⟨rfl, rfl, rfl⟩, rfl, _, _, rfl, rfl, rfl, rfl, rfl⟩)

/-- Running the task handler keeps the id and the request, and a task with a buffer ready. -/
theorem run_task_spec (pool : NgxPool) (t : NgxThreadTask) :
    (t.run pool).id = t.id ∧ (t.run pool).ctx.r = t.ctx.r ∧
      (t.ctx.rc = ngxOk ∧ t.ctx.buf.isSome →
        (t.run pool).ctx.rc = ngxOk ∧ (t.run pool).ctx.buf.isSome) := by
  obtain ⟨id, ⟨buf, rc, r, task⟩, complete⟩ := t
  cases buf with
  | none => exact ⟨rfl, rfl, fun h => absurd h.2 Bool.false_ne_true⟩
  | some b => exact ⟨rfl, rfl, fun h => ⟨h.1, rfl⟩⟩

/-- The event handler lowers `blocked`, and it reaches the finalization unless the chain link
for the body is missing. -/
theorem eventHandler_cases (o : ThreadEventOutcomes) (task : NgxThreadTask) (main : MainRefs)
    (h : HeadersOut) (hready : task.ctx.rc = ngxOk ∧ task.ctx.buf.isSome) :
    ∃ h', ((o.sendsBody → o.link) ∧ ∃ sent, ngxHttpNdgThreadEventHandler o task main h =
        ({ main with blocked := main.blocked - 1 }, h', some sent)) ∨
      (¬ (o.sendsBody → o.link) ∧ ngxHttpNdgThreadEventHandler o task main h =
        ({ main with blocked := main.blocked - 1 }, h', none)) := by
  obtain ⟨hrc, hbuf⟩ := hready
  obtain ⟨buf, hbuf⟩ := Option.isSome_iff_exists.mp hbuf
  refine ⟨⟨ngxHttpOk, ngxBufSize buf⟩, ?_⟩
  unfold ngxHttpNdgThreadEventHandler
  simp only [hrc, ne_eq, not_true, if_false, hbuf]
  cases hs : o.sendsBody <;> cases hl : o.link <;> simp

variable {main : ℕ → ℕ} {count₀ : ℕ → BitVec 16} {s t : ThreadState}

/-- The fields of the main request behind the first call of the request handler. -/
def discardedRefs (main : ℕ → ℕ) (s : ThreadState) (r : ℕ) (o : ThreadHandlerOutcomes) :
    MainRefs :=
  ngxHttpDiscardRequestBody (main r == r) o.pending (s.refs (main r))

theorem call_cases {r : ℕ} {o : ThreadHandlerOutcomes}
    (h : threadStep main s (.call r o) = some t) :
    (¬ o.Obtains ∧ t = { s with
      refs := Function.update s.refs (main r) (discardedRefs main s r o)
      nextTask := s.nextTask + 1
      calls := ⟨s.nextTask, s.refs (main r), discardedRefs main s r o, ngxError⟩ :: s.calls }) ∨
    (o.Obtains ∧ o.post = false ∧ ∃ pool, t = { s with
      pool := pool
      refs := Function.update s.refs (main r) (discardedRefs main s r o).raised
      nextTask := s.nextTask + 1
      calls :=
        ⟨s.nextTask, s.refs (main r), (discardedRefs main s r o).raised, ngxError⟩ :: s.calls }) ∨
    (o.Obtains ∧ o.post = true ∧ ∃ pool task, task.id = s.nextTask ∧ task.ctx.r = r ∧
      (task.ctx.rc = ngxOk ∧ task.ctx.buf.isSome) ∧
      t = { s with
        pool := pool
        refs := Function.update s.refs (main r) (discardedRefs main s r o).raised
        nextTask := s.nextTask + 1
        posted := task :: s.posted
        calls :=
          ⟨s.nextTask, s.refs (main r), (discardedRefs main s r o).raised, ngxDone⟩ ::
            s.calls }) := by
  simp only [threadStep] at h
  split at h
  · cases h
  rcases threadHandler_cases o s.nextTask r (main r == r) s.pool (s.refs (main r)) with
    ⟨hnot, hcall⟩ | ⟨hobtains, hpost, pool, hcall⟩ |
      ⟨hobtains, hpost, pool, task, hcall, hid, hr, hready⟩
  · refine .inl ⟨hnot, ?_⟩
    rw [hcall] at h
    exact (Option.some.inj h).symm
  · refine .inr (.inl ⟨hobtains, hpost, pool, ?_⟩)
    rw [hcall] at h
    exact (Option.some.inj h).symm
  · refine .inr (.inr ⟨hobtains, hpost, pool, task, hid, hr, hready, ?_⟩)
    rw [hcall] at h
    exact (Option.some.inj h).symm

theorem runTask_cases {id : ℕ} (h : threadStep main s (.runTask id) = some t) :
    ∃ pool, t = { s with
      pool := pool
      posted := s.posted.map fun u => if u.id = id then u.run s.pool else u } := by
  simp only [threadStep] at h
  split at h
  · cases h
  split at h
  · cases h
  · exact ⟨_, (Option.some.inj h).symm⟩

theorem complete_cases {id : ℕ} {o : ThreadEventOutcomes} (hready : ThreadReady s)
    (h : threadStep main s (.complete id o) = some t) :
    ∃ task ∈ s.posted, ∃ h' alive count finalized,
      t = { s with
        refs := Function.update s.refs (main task.ctx.r)
          { s.refs (main task.ctx.r) with
            blocked := (s.refs (main task.ctx.r)).blocked - 1
            count := count }
        headersOut := h'
        posted := s.posted.erase task
        finalized := finalized
        alive := alive } ∧
      (((o.sendsBody → o.link) ∧ finalized = task.id :: s.finalized ∧
          count = (s.refs (main task.ctx.r)).count - 1 ∧ alive = s.alive) ∨
        (¬ (o.sendsBody → o.link) ∧ finalized = s.finalized ∧
          count = (s.refs (main task.ctx.r)).count ∧ alive = false)) := by
  simp only [threadStep] at h
  split at h
  · cases h
  split at h
  · cases h
  next task hfind =>
    have hmem : task ∈ s.posted := List.mem_of_find?_eq_some hfind
    refine ⟨task, hmem, ?_⟩
    obtain ⟨h', ⟨hlink, sent, hcall⟩ | ⟨hlink, hcall⟩⟩ :=
      eventHandler_cases o task (s.refs (main task.ctx.r)) (s.headersOut task.ctx.r)
        (hready task hmem)
    · simp only [hcall, Option.some.injEq] at h
      exact ⟨_, _, _, _, h.symm, .inl ⟨hlink, rfl, rfl, rfl⟩⟩
    · simp only [hcall, Option.some.injEq] at h
      exact ⟨_, _, _, _, h.symm, .inr ⟨hlink, rfl, rfl, rfl⟩⟩

theorem discarded_cases {m : ℕ} (h : threadStep main s (.discarded m) = some t) :
    (s.refs m).discardBody = true ∧
      t = { s with
        refs := Function.update s.refs m
          { s.refs m with count := (s.refs m).count - 1, discardBody := false } } := by
  obtain ⟨hguard, h⟩ := Option.ite_none_left_eq_some.mp h
  simp only [Bool.or_eq_true, Bool.not_eq_true', not_or, Bool.not_eq_false] at hguard
  exact ⟨hguard.2, (Option.some.inj h).symm⟩

/-- Every step keeps the tasks ready, whatever fails in it. -/
theorem ThreadReady.step {e : ThreadEvent} (h : ThreadReady s)
    (hstep : threadStep main s e = some t) : ThreadReady t := by
  cases e with
  | call r o =>
    obtain ⟨_, rfl⟩ | ⟨_, _, pool, rfl⟩ | ⟨_, _, pool, task, _, _, hready, rfl⟩ :=
      call_cases hstep
    · exact h
    · exact h
    · exact List.forall_mem_cons.mpr ⟨hready, h⟩
  | runTask id =>
    obtain ⟨pool, rfl⟩ := runTask_cases hstep
    intro u hu
    obtain ⟨v, hv, rfl⟩ := List.mem_map.mp hu
    have hv := h v hv
    split
    · exact (run_task_spec s.pool v).2.2 hv
    · exact hv
  | complete id o =>
    obtain ⟨task, _, h', alive, count, finalized, rfl, _⟩ := complete_cases h hstep
    exact fun u hu => h u (List.mem_of_mem_erase hu)
  | discarded m =>
    obtain ⟨_, rfl⟩ := discarded_cases hstep
    exact h

/-- The fields of one main request change, and those of the others stay. -/
theorem ledgers_update {refs : ℕ → MainRefs} {k : ℕ} {v : MainRefs} {d : BitVec 8} {e : BitVec 16}
    {held : List NgxThreadTask}
    (hblocked : Balanced (taskMain main) (bump (fun m => (refs m).blocked) k d) held)
    (hfits : ∀ m, load (taskMain main) held m < 2 ^ 8)
    (hcount : Balanced (taskMain main) (bump (fun m => (refs m).taken - count₀ m) k e) held)
    (hb : v.blocked = (refs k).blocked + d) (hc : v.taken = (refs k).taken + e) :
    (∀ m, (Function.update refs k v m).blocked.toNat = load (taskMain main) held m) ∧
      Balanced (taskMain main) (fun m => (Function.update refs k v m).taken - count₀ m) held := by
  constructor
  · refine toNat_eq_load_iff.mpr ⟨?_, hfits⟩
    exact Balanced.of_update (f := fun (refs : MainRefs) _ => refs.blocked) hblocked hb
  · refine Balanced.of_update (f := fun (refs : MainRefs) m => refs.taken - count₀ m) hcount ?_
    rw [hc]
    exact add_sub_right_comm ..

/-- A change that neither `blocked` nor the references taken see. -/
theorem ledgers_same {refs : ℕ → MainRefs} {k : ℕ} {v : MainRefs} {held : List NgxThreadTask}
    (hblocked : ∀ m, (refs m).blocked.toNat = load (taskMain main) held m)
    (hcount : Balanced (taskMain main) (fun m => (refs m).taken - count₀ m) held)
    (hb : v.blocked = (refs k).blocked) (hc : v.taken = (refs k).taken) :
    (∀ m, (Function.update refs k v m).blocked.toNat = load (taskMain main) held m) ∧
      Balanced (taskMain main) (fun m => (Function.update refs k v m).taken - count₀ m) held := by
  constructor
  · obtain ⟨hledger, hfits⟩ := toNat_eq_load_iff.mp hblocked
    refine toNat_eq_load_iff.mpr ⟨?_, hfits⟩
    exact Balanced.of_update_same (f := fun (refs : MainRefs) _ => refs.blocked) hledger hb
  · exact Balanced.of_update_same (f := fun (refs : MainRefs) m => refs.taken - count₀ m) hcount
      (congrArg (· - count₀ k) hc)

/-- A call whose task id is behind all posted and finalized ones has no finalization yet. -/
theorem ThreadInv.count_nextTask (h : ThreadInv main count₀ s) :
    s.finalized.count s.nextTask = 0 ∧ s.nextTask ∉ s.posted.map NgxThreadTask.id := by
  constructor
  · refine List.count_eq_zero.mpr fun hmem => ?_
    exact absurd (h.finalizedIds _ hmem) (lt_irrefl _)
  · intro hmem
    obtain ⟨t, ht, hid⟩ := List.mem_map.mp hmem
    exact absurd (h.postedIds t ht) (by omega)

/-- A call that obtains no task: its fields were those of the entry, and only the history
grows. -/
theorem ThreadInv.refused {r : ℕ} {o : ThreadHandlerOutcomes} (h : ThreadInv main count₀ s)
    (htakes : ¬ o.TakesBody (main r == r) (s.refs (main r))) :
    ThreadInv main count₀ { s with
      refs := Function.update s.refs (main r) (discardedRefs main s r o)
      nextTask := s.nextTask + 1
      calls := ⟨s.nextTask, s.refs (main r), discardedRefs main s r o, ngxError⟩ :: s.calls } := by
  obtain ⟨hblocked, hcount⟩ := ledgers_same h.blocked h.count
    (discardRequestBody_blocked (main r == r) o.pending (s.refs (main r)))
    (discardRequestBody_taken (main r == r) o.pending (s.refs (main r)))
  refine ⟨⟨hblocked, hcount, ?_, ?_⟩, h.ids, ?_, ?_, ?_, h.ready⟩
  · refine List.forall_mem_cons.mpr ⟨fun _ => ⟨?_, ?_⟩, h.errors⟩
    · exact discardRequestBody_blocked ..
    · exact (discardRequestBody_count_iff ..).mpr htakes
  · have hne : ngxError ≠ ngxDone := by decide
    exact List.forall_mem_cons.mpr ⟨fun hrc => absurd hrc hne, h.finalized⟩
  · exact fun u hu => (h.postedIds u hu).trans (Nat.lt_succ_self _)
  · exact List.forall_mem_cons.mpr ⟨Nat.lt_succ_self _,
      fun c hc => (h.callIds c hc).trans (Nat.lt_succ_self _)⟩
  · exact fun i hi => (h.finalizedIds i hi).trans (Nat.lt_succ_self _)

/-- A call that posts its task: the new task holds one reference of each kind. -/
theorem ThreadInv.post {r : ℕ} {o : ThreadHandlerOutcomes} {pool : NgxPool} {task : NgxThreadTask}
    (h : ThreadInv main count₀ s) (hroom : load (taskMain main) s.posted (main r) < 255)
    (hid : task.id = s.nextTask) (hr : task.ctx.r = r)
    (hready : task.ctx.rc = ngxOk ∧ task.ctx.buf.isSome) :
    ThreadInv main count₀ { s with
      pool := pool
      refs := Function.update s.refs (main r) (discardedRefs main s r o).raised
      nextTask := s.nextTask + 1
      posted := task :: s.posted
      calls :=
        ⟨s.nextTask, s.refs (main r), (discardedRefs main s r o).raised, ngxDone⟩ ::
          s.calls } := by
  have hkey : taskMain main task = main r := congrArg main hr
  obtain ⟨hledger, hfits⟩ := toNat_eq_load_iff.mp h.blocked
  have hfits' (m : ℕ) : load (taskMain main) (task :: s.posted) m < 2 ^ 8 := by
    rw [load_cons, hkey]
    split
    · next hm => exact hm ▸ Nat.succ_lt_succ hroom
    · exact hfits m
  obtain ⟨hblocked, hcount⟩ := ledgers_update (v := (discardedRefs main s r o).raised)
    (hkey ▸ hledger.acquire task) hfits' (hkey ▸ h.count.acquire task)
    (by simp [discardedRefs]) (by simp [discardedRefs])
  obtain ⟨hzero, hnew⟩ := h.count_nextTask
  refine ⟨⟨hblocked, hcount, ?_, ?_⟩, ?_, ?_, ?_, ?_, ?_⟩
  · have hne : ngxDone ≠ ngxError := by decide
    exact List.forall_mem_cons.mpr ⟨fun hrc => absurd hrc hne, h.errors⟩
  · refine List.forall_mem_cons.mpr ⟨fun _ => ?_, fun c hc hrc => ?_⟩
    · rw [if_pos (by simp [hid])]
      exact hzero
    · have hne : c.task ≠ task.id := by
        rw [hid]
        exact (h.callIds c hc).ne
      rw [h.finalized c hc hrc]
      simp [hne]
  · rw [List.map_cons, List.nodup_cons, hid]
    exact ⟨hnew, h.ids⟩
  · exact List.forall_mem_cons.mpr ⟨hid.trans_lt (Nat.lt_succ_self _),
      fun u hu => (h.postedIds u hu).trans (Nat.lt_succ_self _)⟩
  · exact List.forall_mem_cons.mpr ⟨Nat.lt_succ_self _,
      fun c hc => (h.callIds c hc).trans (Nat.lt_succ_self _)⟩
  · exact fun i hi => (h.finalizedIds i hi).trans (Nat.lt_succ_self _)
  · exact List.forall_mem_cons.mpr ⟨hready, h.ready⟩

theorem ThreadInv.call {r : ℕ} {o : ThreadHandlerOutcomes} (h : ThreadInv main count₀ s)
    (hok : NoLeak main s (.call r o)) (hstep : threadStep main s (.call r o) = some t) :
    ThreadInv main count₀ t := by
  obtain ⟨hnot, rfl⟩ | ⟨hobtains, hpost, _⟩ |
    ⟨hobtains, _, pool, task, hid, hr, hready, rfl⟩ := call_cases hstep
  · exact h.refused (hok.2 hnot)
  · exact absurd (hpost.symm.trans (hok.1 hobtains).1) Bool.false_ne_true
  · exact h.post (hok.1 hobtains).2 hid hr hready

theorem ThreadInv.runTask {id : ℕ} (h : ThreadInv main count₀ s)
    (hstep : threadStep main s (.runTask id) = some t) : ThreadInv main count₀ t := by
  obtain ⟨pool, rfl⟩ := runTask_cases hstep
  have hrun (u : NgxThreadTask) := run_task_spec s.pool u
  have hkey (u : NgxThreadTask) :
      taskMain main (if u.id = id then u.run s.pool else u) = taskMain main u := by
    split
    · exact congrArg main (hrun u).2.1
    · rfl
  have hids : (s.posted.map fun u => if u.id = id then u.run s.pool else u).map NgxThreadTask.id =
      s.posted.map NgxThreadTask.id := by
    rw [List.map_map]
    refine List.map_congr_left fun u _ => ?_
    simp only [Function.comp]
    split
    · exact (hrun u).1
    · rfl
  refine ⟨⟨fun m => ?_, h.count.map hkey, h.errors, ?_⟩, ?_, ?_, h.callIds,
    h.finalizedIds, ?_⟩
  · rw [load_map hkey]
    exact h.blocked m
  · simpa only [hids] using h.finalized
  · simpa only [hids] using h.ids
  · intro u hu
    obtain ⟨v, hv, rfl⟩ := List.mem_map.mp hu
    have hlt := h.postedIds v hv
    split
    · rw [(hrun v).1]
      exact hlt
    · exact hlt
  · exact ThreadReady.step h.ready hstep

theorem ThreadInv.complete {id : ℕ} {o : ThreadEventOutcomes} (h : ThreadInv main count₀ s)
    (hok : NoLeak main s (.complete id o)) (hstep : threadStep main s (.complete id o) = some t) :
    ThreadInv main count₀ t := by
  obtain ⟨task, hmem, h', alive, count, finalized, rfl, ⟨_, rfl, rfl, _⟩ | ⟨hlink, _⟩⟩ :=
    complete_cases h.ready hstep
  · -- the references of the task are given back and its call is finalized
    have herase : ∀ u ∈ s.posted.erase task, u ∈ s.posted := fun u hu => List.mem_of_mem_erase hu
    have hperm : s.posted.Perm (task :: s.posted.erase task) := List.perm_cons_erase hmem
    have hids : (task.id :: (s.posted.erase task).map NgxThreadTask.id).Nodup :=
      (hperm.map NgxThreadTask.id).nodup_iff.mp h.ids
    have hposted (i : ℕ) : i ∈ s.posted.map NgxThreadTask.id ↔
        i = task.id ∨ i ∈ (s.posted.erase task).map NgxThreadTask.id := by
      rw [(hperm.map NgxThreadTask.id).mem_iff, List.map_cons, List.mem_cons]
    obtain ⟨hledger, hfits⟩ := toNat_eq_load_iff.mp h.blocked
    have hfits' (m : ℕ) : load (taskMain main) (s.posted.erase task) m < 2 ^ 8 :=
      (List.erase_sublist.countP_le).trans_lt (hfits m)
    obtain ⟨hblocked, hcount⟩ := ledgers_update (hledger.release hmem) hfits'
      (h.count.release hmem) (sub_eq_add_neg _ _) (MainRefs.lowered_taken _ _)
    refine ⟨⟨hblocked, hcount, h.errors, ?_⟩, (List.nodup_cons.mp hids).2, ?_, h.callIds, ?_, ?_⟩
    · intro c hc hrc
      have hold := h.finalized c hc hrc
      by_cases heq : c.task = task.id
      · rw [if_pos ((hposted _).mpr (.inl heq))] at hold
        rw [if_neg (heq ▸ (List.nodup_cons.mp hids).1), heq, List.count_cons_self, ← heq, hold]
      · rw [List.count_cons_of_ne (Ne.symm heq), hold]
        simp only [hposted, heq, false_or]
    · exact fun u hu => h.postedIds u (herase u hu)
    · exact List.forall_mem_cons.mpr ⟨h.postedIds task hmem, h.finalizedIds⟩
    · exact ThreadReady.step h.ready hstep
  · exact absurd hok hlink

theorem ThreadInv.discarded {m : ℕ} (h : ThreadInv main count₀ s)
    (hstep : threadStep main s (.discarded m) = some t) : ThreadInv main count₀ t := by
  obtain ⟨hdiscard, rfl⟩ := discarded_cases hstep
  obtain ⟨hblocked, hcount⟩ := ledgers_same (k := m)
    (v := { s.refs m with count := (s.refs m).count - 1, discardBody := false })
    h.blocked h.count rfl (by simp [MainRefs.taken, hdiscard])
  exact ⟨⟨hblocked, hcount, h.errors, h.finalized⟩, h.ids, h.postedIds, h.callIds,
    h.finalizedIds, h.ready⟩

/-- A call that fails behind a reference it took, and one whose `blocked` wraps, break the
balance. -/
theorem call_leak {r : ℕ} {o : ThreadHandlerOutcomes} (hleak : ¬ NoLeak main s (.call r o))
    (hstep : threadStep main s (.call r o) = some t) :
    ¬ RefsBalanced main count₀ t := by
  intro hbal
  obtain ⟨hnot, rfl⟩ | ⟨_, _, pool, rfl⟩ | ⟨hobtains, hpost, pool, task, _, hr, _, rfl⟩ :=
    call_cases hstep
  · -- the body of the request has a reference that the call leaves behind
    have hexit := (hbal.errors _ List.mem_cons_self rfl).2
    refine hleak ⟨fun hobtains => absurd hobtains hnot, fun _ => ?_⟩
    exact (discardRequestBody_count_iff ..).mp hexit
  · have hexit := (hbal.errors _ List.mem_cons_self rfl).1
    simp [discardedRefs] at hexit
  · refine hleak ⟨fun _ => ⟨hpost, ?_⟩, fun hnot => absurd hobtains hnot⟩
    have hfits := (toNat_eq_load_iff.mp hbal.blocked).2 (main r)
    rw [load_cons, if_pos (show taskMain main task = main r from congrArg main hr)] at hfits
    exact Nat.lt_of_succ_lt_succ hfits

/-- A step that leaves a reference behind breaks the balance. -/
theorem ThreadInv.leak {e : ThreadEvent} (h : ThreadInv main count₀ s) (hleak : ¬ NoLeak main s e)
    (hstep : threadStep main s e = some t) : ¬ RefsBalanced main count₀ t := by
  cases e with
  | call r o => exact call_leak hleak hstep
  | runTask id => exact absurd trivial hleak
  | discarded m => exact absurd trivial hleak
  | complete id o =>
    obtain ⟨task, hmem, h', alive, count, finalized, rfl, ⟨hlink, _⟩ | ⟨_, rfl, rfl, _⟩⟩ :=
      complete_cases h.ready hstep
    · exact absurd hlink hleak
    · -- the task is gone, but its `count` was never given back
      intro hbal
      refine h.count.not_erase hmem fun m => ?_
      rw [← hbal.count m]
      by_cases hm : m = main task.ctx.r
      · subst hm
        simp [MainRefs.taken]
      · simp [hm]

theorem ThreadInv.init (main : ℕ → ℕ) (count₀ : ℕ → BitVec 16) (pool : NgxPool)
    (headersOut : ℕ → HeadersOut) : ThreadInv main count₀ (.init count₀ pool headersOut) := by
  refine ⟨⟨fun m => rfl, fun m => ?_, ?_, ?_⟩, ?_, ?_, ?_, ?_, ?_⟩
  · simp [ThreadState.init, MainRefs.taken]
  all_goals simp [ThreadState.init]

/-- **Reference balance.** In every state of a run the counters are balanced exactly when no
call of the run failed behind a reference it had taken, none found `blocked` full, and no
response missed its chain link. -/
theorem thread_refs_balanced_iff (main : ℕ → ℕ) (count₀ : ℕ → BitVec 16) (pool : NgxPool)
    (headersOut : ℕ → HeadersOut) (es : List ThreadEvent) :
    Along (threadStep main) (RefsBalanced main count₀) (.init count₀ pool headersOut) es ↔
      Meets (threadStep main) (NoLeak main) (.init count₀ pool headersOut) es := by
  refine along_iff_meets (I := ThreadInv main count₀) ?_ ?_ ?_
    (.init main count₀ pool headersOut) es
  · intro s e t h hok hstep
    cases e with
    | call r o => exact h.call hok hstep
    | runTask id => exact h.runTask hstep
    | complete id o => exact h.complete hok hstep
    | discarded m => exact h.discarded hstep
  · exact fun s h => h.toRefsBalanced
  · exact fun s e t h hleak hstep => h.leak hleak hstep

/-- One failed post: the handler returns `NGX_ERROR` with both counters raised. -/
theorem thread_refs_leak :
    ¬ Along (threadStep id) (RefsBalanced id fun _ => 1)
      (.init (fun _ => 1) ⟨⟨fun _ => 0, fun _ _ => 0⟩, 4096⟩ fun _ => ⟨0, 0⟩)
      [.call 0 ⟨false, true, true, true, false⟩] := by
  intro h
  have hleak := (h.2 _ rfl).errors _ List.mem_cons_self rfl
  exact absurd hleak.1 (by decide)

end NgxNdg
