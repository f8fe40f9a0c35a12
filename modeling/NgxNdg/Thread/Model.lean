import Mathlib.Data.BitVec
import NgxNdg.Core.Pool

/-!
# The ndg thread module

The request handler posts a task to a thread pool and raises `blocked` and `count` of the
main request. A pool thread runs the task handler, which fills the buffer of the task; the
event loop then runs the event handler, which lowers `blocked`, sends the response and
finalizes the request.

`ngx_http_finalize_request` and `ngx_http_discard_request_body` are nginx code. Of the effects of
the first the model keeps that it gives one `count` of the main request back. The second takes
one when the body of a main request has not arrived yet; nginx gives it back when it has read
the body to its end.

## Main definitions

- `ngxHttpNdgThreadHandler`, `ngxHttpNdgThreadTaskHandler`, `ngxHttpNdgThreadEventHandler`
- `threadStep`: the system of all requests and tasks, one step per handler run
-/

namespace NgxNdg

/-- The fields of a main request that hold it: `blocked` and `count` have 8 and 16 bits, and
`discardBody` is set while nginx reads a body only to throw it away. -/
structure MainRefs where
  blocked : BitVec 8
  count : BitVec 16
  discardBody : Bool
  deriving DecidableEq

/-- `ngx_http_ndg_thread_task_ctx_t`; the request and the task are given by their ids. -/
structure NgxHttpNdgThreadTaskCtx where
  buf : Option NgxBuf
  rc : ℤ
  r : ℕ
  task : ℕ
  deriving DecidableEq

/-- `ngx_thread_task_t`: `complete` is the flag of its event, set when the task handler has
run in the pool. -/
structure NgxThreadTask where
  id : ℕ
  ctx : NgxHttpNdgThreadTaskCtx
  complete : Bool
  deriving DecidableEq

/-- Whether a part of the body of the request has not arrived yet, and the success of the four
calls of the request handler that can fail. -/
structure ThreadHandlerOutcomes where
  pending : Bool
  pool : Bool
  task : Bool
  buf : Bool
  post : Bool
  deriving DecidableEq

/-- `ngx_http_discard_request_body`: nothing for a subrequest, for a body that is already thrown
away, and for one that is read to its end at once. -/
def ngxHttpDiscardRequestBody (isMain pending : Bool) (main : MainRefs) : MainRefs :=
  if !isMain || main.discardBody || !pending then main
  else { main with count := main.count + 1, discardBody := true }

/-- The request handler of `r` with the fields of `r->main`, which is `r` itself where `isMain`
says so: the fields, the posted task if any, and the return code. -/
def ngxHttpNdgThreadHandler (o : ThreadHandlerOutcomes) (id r : ℕ) (isMain : Bool) (pool : NgxPool)
    (main : MainRefs) : NgxPool × MainRefs × Option NgxThreadTask × ℤ :=
  let main := ngxHttpDiscardRequestBody isMain o.pending main
  if !o.pool then (pool, main, none, ngxError)
  else if !o.task then (pool, main, none, ngxError)
  else if !o.buf then (pool, main, none, ngxError)
  else
    let (pool, buf) := ngxCreateTempBuf pool 100
    let task : NgxThreadTask := ⟨id, ⟨some buf, ngxOk, r, id⟩, false⟩
    let main := { main with blocked := main.blocked + 1, count := main.count + 1 }
    if !o.post then (pool, main, none, ngxError)
    else (pool, main, some task, ngxDone)

/-- The string `hello nginx thread`. -/
def helloNginxThread : List UInt8 :=
  [104, 101, 108, 108, 111, 32, 110, 103, 105, 110, 120, 32, 116, 104, 114, 101, 97, 100]

def ngxHttpNdgThreadTaskHandler (pool : NgxPool) (tctx : NgxHttpNdgThreadTaskCtx) :
    NgxPool × NgxHttpNdgThreadTaskCtx :=
  match tctx.buf with
  | none => (pool, { tctx with rc := ngxError })
  | some buf =>
    let (pool, last) := ngxSlprintf pool buf.pos buf.bufEnd helloNginxThread
    let buf := { buf with last := last, lastBuf := true, lastInChain := true }
    (pool, { tctx with buf := some buf })

/-- What the event handler gets from nginx: the results of `ngx_http_send_header` and
`ngx_http_output_filter`, `r->header_only`, and whether the chain link is allocated. -/
structure ThreadEventOutcomes where
  sendHeader : ℤ
  headerOnly : Bool
  link : Bool
  output : ℤ
  deriving DecidableEq

/-- The header of the response was sent and a body is to follow. -/
def ThreadEventOutcomes.sendsBody (o : ThreadEventOutcomes) : Bool :=
  bodyFollows o.sendHeader o.headerOnly

/-- The event handler with the fields of `r->main`: the fields, the response headers, and
the output chain with the code the request is finalized with; `none` for the dereference of
a chain link that is `NULL`. -/
def ngxHttpNdgThreadEventHandler (o : ThreadEventOutcomes) (task : NgxThreadTask) (main : MainRefs)
    (h : HeadersOut) : MainRefs × HeadersOut × Option (NgxChain × ℤ) :=
  let tctx := task.ctx
  let main : MainRefs := { main with blocked := main.blocked - 1 }
  if tctx.rc ≠ ngxOk then (main, h, some ([], tctx.rc))
  else
    match tctx.buf with
    | none => (main, { h with status := ngxHttpOk }, none)
    | some buf =>
      let h : HeadersOut := ⟨ngxHttpOk, ngxBufSize buf⟩
      if !o.sendsBody then (main, h, some ([], o.sendHeader))
      else if !o.link then (main, h, none)
      else (main, h, some ([buf], o.output))

/-- A call of the request handler that has returned: the id its task would have, the fields of
the main request on entry and on exit, and the return code. -/
structure ThreadCall where
  task : ℕ
  entry : MainRefs
  exit : MainRefs
  rc : ℤ

/-- All requests and tasks of a worker: `posted` are the tasks whose event handler has not
run yet, `calls` and `finalized` record the handler calls and, by task, the calls of
`ngx_http_finalize_request`. -/
structure ThreadState where
  pool : NgxPool
  refs : ℕ → MainRefs
  headersOut : ℕ → HeadersOut
  nextTask : ℕ
  posted : List NgxThreadTask
  calls : List ThreadCall
  finalized : List ℕ
  alive : Bool

inductive ThreadEvent where
  /-- the content phase calls the request handler of `r` -/
  | call (r : ℕ) (o : ThreadHandlerOutcomes)
  /-- a pool thread runs the task handler -/
  | runTask (id : ℕ)
  /-- the event loop runs the event handler of a task that has run -/
  | complete (id : ℕ) (o : ThreadEventOutcomes)
  /-- nginx has read the body of the main request `m` to its end -/
  | discarded (m : ℕ)

/-- Run the task handler of a task. -/
def NgxThreadTask.run (pool : NgxPool) (t : NgxThreadTask) : NgxThreadTask :=
  { t with ctx := (ngxHttpNdgThreadTaskHandler pool t.ctx).2, complete := true }

/-- `ngx_http_finalize_request` gives one count of the main request back. -/
def ngxHttpFinalizeRequest (main : MainRefs) : MainRefs := { main with count := main.count - 1 }

/-- One step; `main r` is the main request of `r`. A `NULL` dereference kills the worker. -/
def threadStep (main : ℕ → ℕ) (s : ThreadState) : ThreadEvent → Option ThreadState
  | .call r o =>
    if !s.alive then none
    else
      let entry := s.refs (main r)
      let (pool, exit, task, rc) :=
        ngxHttpNdgThreadHandler o s.nextTask r (main r == r) s.pool entry
      some { s with
        pool := pool
        refs := Function.update s.refs (main r) exit
        nextTask := s.nextTask + 1
        posted := task.toList ++ s.posted
        calls := ⟨s.nextTask, entry, exit, rc⟩ :: s.calls }
  | .runTask id =>
    if !s.alive then none
    else
      match s.posted.find? fun t => t.id == id && !t.complete with
      | none => none
      | some task =>
        some { s with
          pool := (ngxHttpNdgThreadTaskHandler s.pool task.ctx).1
          posted := s.posted.map fun t => if t.id = id then t.run s.pool else t }
  | .complete id o =>
    if !s.alive then none
    else
      match s.posted.find? fun t => t.id == id && t.complete with
      | none => none
      | some task =>
        let r := task.ctx.r
        let (refs, h, sent) :=
          ngxHttpNdgThreadEventHandler o task (s.refs (main r)) (s.headersOut r)
        match sent with
        | none =>
          some { s with
            refs := Function.update s.refs (main r) refs
            headersOut := Function.update s.headersOut r h
            posted := s.posted.erase task
            alive := false }
        | some _ =>
          some { s with
            refs := Function.update s.refs (main r) (ngxHttpFinalizeRequest refs)
            headersOut := Function.update s.headersOut r h
            posted := s.posted.erase task
            finalized := task.id :: s.finalized }
  | .discarded m =>
    if !s.alive || !(s.refs m).discardBody then none
    else
      let refs := ngxHttpFinalizeRequest { s.refs m with discardBody := false }
      some { s with refs := Function.update s.refs m refs }

/-- A worker before any handler call: nothing is blocked, and every main request holds the
references `count₀`. -/
def ThreadState.init (count₀ : ℕ → BitVec 16) (pool : NgxPool) (headersOut : ℕ → HeadersOut) :
    ThreadState where
  pool := pool
  refs := fun m => ⟨0, count₀ m, false⟩
  headersOut := headersOut
  nextTask := 0
  posted := []
  calls := []
  finalized := []
  alive := true

end NgxNdg
