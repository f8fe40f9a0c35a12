import NgxNdg.Core.StreamSession

/-!
# The ndg discard module

The content handler of a discard server registers both events and reads at once. The read
handler takes all that has arrived, throws it away, and waits for more with a timer; it ends the
session when the client has closed, or has sent nothing for too long.

## Main definitions

- `ngxStreamNdgDiscardHandler`, `ngxStreamNdgDiscardReadHandler`
- `discardStep`: the events of an open session
-/

namespace NgxNdg

/-- The results of the calls of `c->recv` that one event leads to. The socket runs dry: some
call brings nothing. -/
structure RecvResults where
  results : List ℤ
  stops : ∃ n ∈ results, n ≤ 0

/-- The event behind a call of `c->recv` that has returned `n`: `NGX_AGAIN` clears `ready`. -/
def ngxRecv (n : ℤ) (ev : NgxEvent) : NgxEvent :=
  if n = ngxAgain then { ev with ready := false } else ev

/-- The `for` loop: the result of the first call of `c->recv` that brings nothing, and the event
behind it. -/
def discardRecvLoop : List ℤ → NgxEvent → ℤ × NgxEvent
  | [], ev => (ngxAgain, ngxRecv ngxAgain ev)
  | n :: results, ev =>
    let ev := ngxRecv n ev
    if n ≤ 0 then (n, ev) else discardRecvLoop results ev

/-- What the read handler gets from nginx: the results of `c->recv`, and the success of the system
calls of `ngx_handle_read_event`. -/
structure DiscardReadOutcomes where
  recv : RecvResults
  readEvent : Bool

/-- The read handler; `ev` is the read event of the connection. -/
def ngxStreamNdgDiscardReadHandler (m : NgxEventModule) (timeout : ℕ) (o : DiscardReadOutcomes)
    (s : NgxStreamSession) : NgxStreamSession :=
  let ev := s.read
  if ev.timedout then ngxStreamFinalizeSession s ngxStreamOk
  else
    let (n, ev) := if ev.ready then discardRecvLoop o.recv.results ev else (ngxAgain, ev)
    if n = ngxAgain then
      match m.handle o.readEvent ev with
      | none => ngxStreamFinalizeSession { s with read := ev } ngxStreamInternalServerError
      | some ev => { s with read := ngxAddTimer ev timeout }
    else ngxStreamFinalizeSession { s with read := ev } ngxStreamOk

/-- What the content handler gets from nginx: the success of the registrations, and what the
read handler gets that it calls. -/
structure DiscardHandlerOutcomes where
  writeEvent : Bool
  readEvent : Bool
  read : DiscardReadOutcomes

def ngxStreamNdgDiscardHandler (m : NgxEventModule) (timeout : ℕ) (o : DiscardHandlerOutcomes)
    (s : NgxStreamSession) : NgxStreamSession :=
  let write := { s.write with handler := .discardWrite }
  match m.handle o.writeEvent write with
  | none => ngxStreamFinalizeSession { s with write := write } ngxStreamInternalServerError
  | some write =>
    let read := { s.read with handler := .discardRead }
    match m.handle o.readEvent read with
    | none =>
      ngxStreamFinalizeSession { s with write := write, read := read } ngxStreamInternalServerError
    | some read =>
      ngxStreamNdgDiscardReadHandler m timeout o.read { s with write := write, read := read }

inductive DiscardEvent where
  /-- nginx calls the handler of the read event -/
  | read (d : Delivery) (o : DiscardReadOutcomes)
  /-- nginx calls the handler of the write event -/
  | write (d : Delivery)

/-- One step of an open session. The write handler does nothing. -/
def discardStep (m : NgxEventModule) (timeout : ℕ) (s : NgxStreamSession) :
    DiscardEvent → Option NgxStreamSession
  | .read d o =>
    if s.finalized ≠ [] ∨ s.read.handler ≠ .discardRead then none
    else some (ngxStreamNdgDiscardReadHandler m timeout o { s with read := s.read.deliver d })
  | .write d =>
    if s.finalized ≠ [] ∨ s.write.handler ≠ .discardWrite then none
    else some { s with write := s.write.deliver d }

/-- What a step does, from an open session. -/
theorem discardStep_cases {m : NgxEventModule} {timeout : ℕ} {s t : NgxStreamSession}
    {e : DiscardEvent} (h : discardStep m timeout s e = some t) :
    s.finalized = [] ∧
      ((∃ d o, e = .read d o ∧ s.read.handler = .discardRead ∧
        t = ngxStreamNdgDiscardReadHandler m timeout o { s with read := s.read.deliver d }) ∨
      ∃ d, e = .write d ∧ t = { s with write := s.write.deliver d }) := by
  cases e with
  | read d o =>
    obtain ⟨hguard, h⟩ := Option.ite_none_left_eq_some.mp h
    rw [not_or, not_not, not_not] at hguard
    exact ⟨hguard.1, .inl ⟨d, o, rfl, hguard.2, (Option.some.inj h).symm⟩⟩
  | write d =>
    obtain ⟨hguard, h⟩ := Option.ite_none_left_eq_some.mp h
    exact ⟨not_not.mp (not_or.mp hguard).1, .inr ⟨d, rfl, (Option.some.inj h).symm⟩⟩

end NgxNdg
