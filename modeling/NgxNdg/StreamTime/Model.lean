import Mathlib.Data.Nat.Digits.Defs
import NgxNdg.Core.StreamSession

/-!
# The ndg time module

The content handler of a time server registers both events and writes at once. The write
handler waits with a timer until the connection is ready; then it sends the time as a line and
ends the session.

## Main definitions

- `ngxStreamNdgTimeHandler`, `ngxStreamNdgTimeWriteHandler`
- `timeStep`: the events of an open session
-/

namespace NgxNdg

/-- The decimal digits of a number. -/
def ngxSprintfNum (n : ℕ) : List UInt8 :=
  if n = 0 then [48] else (Nat.digits 10 n).reverse.map fun d => 48 + d.toUInt8

/-- The format `%T` with a line feed behind it. -/
def timeLine (time : ℤ) : List UInt8 :=
  (if time < 0 then [45] else []) ++ ngxSprintfNum time.natAbs ++ [10]

/-- The results of `ngx_stream_top_filter`. -/
inductive TopFilterResult where
  /-- the whole chain is written -/
  | ok
  /-- a part of it is still queued -/
  | again
  | error
  deriving DecidableEq

/-- The return code of the filter. -/
def TopFilterResult.rc : TopFilterResult → ℤ
  | .ok => ngxOk
  | .again => ngxAgain
  | .error => ngxError

/-- What the write handler gets from nginx: the success of the system calls of
`ngx_handle_write_event`, and of the allocations of the buffer and of the chain link, the result of
the filter, and the time. -/
structure TimeWriteOutcomes where
  writeEvent : Bool
  buf : Bool
  link : Bool
  topFilter : TopFilterResult
  time : ℤ
  deriving DecidableEq

/-- A session of a time server; `sent` are the chains given to the filter, and the results. -/
structure TimeSession extends NgxStreamSession where
  sent : List (NgxChain × TopFilterResult)

@[inherit_doc ngxStreamFinalizeSession]
def TimeSession.finalize (s : TimeSession) (rc : ℤ) : TimeSession :=
  { s with toNgxStreamSession := ngxStreamFinalizeSession s.toNgxStreamSession rc }

/-- The write handler; `ev` is the write event of the connection. -/
def ngxStreamNdgTimeWriteHandler (m : NgxEventModule) (o : TimeWriteOutcomes) (s : TimeSession) :
    TimeSession :=
  let ev := s.write
  if ev.timedout then s.finalize ngxStreamOk
  else if !ev.ready then
    match m.handle o.writeEvent ev with
    | none => s.finalize ngxStreamInternalServerError
    | some ev => { s with write := ngxAddTimer ev 100 }
  else if !o.buf then s.finalize ngxStreamInternalServerError
  else
    let (pool, b) := ngxCreateTempBuf s.pool 20
    let (pool, last) := ngxSlprintf pool b.pos b.bufEnd (timeLine o.time)
    let b := { b with last := last, lastBuf := true, lastInChain := true }
    let s := { s with pool := pool }
    if !o.link then s.finalize ngxStreamInternalServerError
    else
      let out := [b]
      let rc := o.topFilter.rc
      let s := { s with sent := (out, o.topFilter) :: s.sent }
      s.finalize rc

/-- What the content handler gets from nginx: the success of the registrations, and what the
write handler gets that it calls. -/
structure TimeHandlerOutcomes where
  readEvent : Bool
  writeEvent : Bool
  write : TimeWriteOutcomes
  deriving DecidableEq

def ngxStreamNdgTimeHandler (m : NgxEventModule) (o : TimeHandlerOutcomes) (s : TimeSession) :
    TimeSession :=
  let read := { s.read with handler := .timeRead }
  match m.handle o.readEvent read with
  | none => TimeSession.finalize { s with read := read } ngxStreamInternalServerError
  | some read =>
    let write := { s.write with handler := .timeWrite }
    match m.handle o.writeEvent write with
    | none =>
      TimeSession.finalize { s with read := read, write := write } ngxStreamInternalServerError
    | some write =>
      ngxStreamNdgTimeWriteHandler m o.write { s with read := read, write := write }

inductive TimeEvent where
  /-- nginx calls the handler of the read event -/
  | read (d : Delivery)
  /-- nginx calls the handler of the write event -/
  | write (d : Delivery) (o : TimeWriteOutcomes)

/-- One step of an open session. The read handler does nothing. -/
def timeStep (m : NgxEventModule) (s : TimeSession) : TimeEvent → Option TimeSession
  | .read d =>
    if s.finalized ≠ [] ∨ s.read.handler ≠ .timeRead then none
    else some { s with read := s.read.deliver d }
  | .write d o =>
    if s.finalized ≠ [] ∨ s.write.handler ≠ .timeWrite then none
    else some (ngxStreamNdgTimeWriteHandler m o { s with write := s.write.deliver d })

/-- What a step does, from an open session. -/
theorem timeStep_cases {m : NgxEventModule} {s t : TimeSession} {e : TimeEvent}
    (h : timeStep m s e = some t) :
    s.finalized = [] ∧
      ((∃ d, e = .read d ∧ t = { s with read := s.read.deliver d }) ∨
      ∃ d o, e = .write d o ∧ s.write.handler = .timeWrite ∧
        t = ngxStreamNdgTimeWriteHandler m o { s with write := s.write.deliver d }) := by
  cases e with
  | read d =>
    obtain ⟨hguard, h⟩ := Option.ite_none_left_eq_some.mp h
    exact ⟨not_not.mp (not_or.mp hguard).1, .inl ⟨d, rfl, (Option.some.inj h).symm⟩⟩
  | write d o =>
    obtain ⟨hguard, h⟩ := Option.ite_none_left_eq_some.mp h
    rw [not_or, not_not, not_not] at hguard
    exact ⟨hguard.1, .inr ⟨d, o, rfl, hguard.2, (Option.some.inj h).symm⟩⟩

/-- A session that the content handler has not been called for. -/
def TimeSession.init (pool : NgxPool) (read write : NgxEvent) : TimeSession where
  toNgxStreamSession := .init pool read write
  sent := []

end NgxNdg
