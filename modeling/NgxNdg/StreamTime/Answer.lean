import NgxNdg.Lib.Run
import NgxNdg.StreamTime.Model

/-!
# How a time session ends

The write handler ends the session behind every send, with the return code of the filter as the
status. None of these codes is a status, and behind `NGX_AGAIN` a part of the line is dropped:
only the sessions that send nothing end as they should.

## Main definitions

- `AnswerKept`: nothing queued is dropped, and the status behind a send tells its result
- `TimeSends`: the write handler gets as far as the filter
-/

namespace NgxNdg

open Transition

/-- The statuses a stream session ends with. -/
def IsStreamStatus (status : ℤ) : Prop :=
  status ∈ [ngxStreamOk, ngxStreamBadRequest, ngxStreamForbidden, ngxStreamInternalServerError,
    ngxStreamBadGateway, ngxStreamServiceUnavailable]

instance (status : ℤ) : Decidable (IsStreamStatus status) :=
  inferInstanceAs (Decidable (status ∈ [_, _, _, _, _, _]))

/-- The status a session may end with when this was the result of its last send. Behind a part
that is still queued it must have timed out or failed. -/
def StatusFits (timedout : Bool) (status : ℤ) : TopFilterResult → Prop
  | .ok => status = ngxStreamOk
  | .again => IsStreamStatus status ∧ (timedout = true ∨ status ≠ ngxStreamOk)
  | .error => IsStreamStatus status ∧ status ≠ ngxStreamOk

/-- A session that was finalized behind a send has dropped nothing, unless it has timed out or
failed, and its status tells the result of the send. -/
def AnswerKept (s : TimeSession) : Prop :=
  ∀ status ∈ s.finalized, ∀ send ∈ s.sent.head?, StatusFits s.write.timedout status send.2

/-- The write handler finds the connection ready, and its allocations succeed. -/
def TimeSends (ev : NgxEvent) (o : TimeWriteOutcomes) : Prop :=
  ev.timedout = false ∧ ev.ready = true ∧ o.buf = true ∧ o.link = true

/-- The handler of the event gets as far as the filter. -/
def TimeEvent.Sends (s : TimeSession) : TimeEvent → Prop
  | .read _ => False
  | .write d o => TimeSends (s.write.deliver d) o

variable {m : NgxEventModule} {s t : TimeSession}

/-- What the write handler can do. -/
theorem timeWriteHandler_cases (m : NgxEventModule) (o : TimeWriteOutcomes) (s : TimeSession) :
    (TimeSends s.write o ∧ ∃ pool out, ngxStreamNdgTimeWriteHandler m o s =
      TimeSession.finalize { s with pool := pool, sent := (out, o.topFilter) :: s.sent }
        o.topFilter.rc) ∨
    (¬ TimeSends s.write o ∧ ∃ pool status, ngxStreamNdgTimeWriteHandler m o s =
      TimeSession.finalize { s with pool := pool } status) ∨
    (¬ TimeSends s.write o ∧ s.write.ready = false ∧
      ∃ ev, m.handle o.writeEvent s.write = some ev ∧
        ngxStreamNdgTimeWriteHandler m o s = { s with write := ngxAddTimer ev 100 }) := by
  unfold ngxStreamNdgTimeWriteHandler
  by_cases htimedout : s.write.timedout = true
  · rw [if_pos htimedout]
    refine .inr (.inl ⟨fun h => ?_, _, _, rfl⟩)
    exact absurd (htimedout.symm.trans h.1) (by decide)
  rw [if_neg htimedout]
  cases hready : s.write.ready with
  | false =>
    have hnot : ¬ TimeSends s.write o := fun h => absurd (hready.symm.trans h.2.1) (by decide)
    cases hevent : m.handle o.writeEvent s.write with
    | none => exact .inr (.inl ⟨hnot, _, _, rfl⟩)
    | some ev => exact .inr (.inr ⟨hnot, rfl, ev, rfl, rfl⟩)
  | true =>
    cases hbuf : o.buf with
    | false =>
      have hnot : ¬ TimeSends s.write o :=
        fun h => absurd (hbuf.symm.trans h.2.2.1) (by decide)
      exact .inr (.inl ⟨hnot, _, _, rfl⟩)
    | true =>
      cases hlink : o.link with
      | false =>
        have hnot : ¬ TimeSends s.write o :=
          fun h => absurd (hlink.symm.trans h.2.2.2) (by decide)
        exact .inr (.inl ⟨hnot, _, _, rfl⟩)
      | true => exact .inl ⟨⟨Bool.not_eq_true _ ▸ htimedout, hready, hbuf, hlink⟩, _, _, rfl⟩

/-- The write handler, installed in the event, leaves an open session settled. -/
theorem timeWriteHandler_settled (o : TimeWriteOutcomes) (hopen : s.finalized = [])
    (hhandler : s.write.handler = .timeWrite) :
    (ngxStreamNdgTimeWriteHandler m o s).Settled (ngxStreamNdgTimeWriteHandler m o s).write
      .timeWrite := by
  obtain ⟨_, pool, out, h⟩ | ⟨_, pool, status, h⟩ | ⟨_, hready, ev, hevent, h⟩ :=
    timeWriteHandler_cases m o s
  · rw [h]
    apply NgxStreamSession.Settled.of_finalize
    exact hopen
  · rw [h]
    apply NgxStreamSession.Settled.of_finalize
    exact hopen
  · have hwaiting : s.Waiting (ngxAddTimer ev 100) s.write.handler :=
      .of_handle hevent hready hopen 100
    rw [h, ← hhandler]
    exact .of_waiting ⟨hopen, hwaiting.active, hwaiting.handler, hwaiting.timer⟩

/-- No return code of the filter is a status that fits. -/
theorem not_statusFits_rc (timedout : Bool) (result : TopFilterResult) :
    ¬ StatusFits timedout result.rc result := by
  cases result with
  | ok =>
    show ngxOk ≠ ngxStreamOk
    decide
  | again => exact fun h => absurd h.1 (show ¬ IsStreamStatus ngxAgain by decide)
  | error => exact fun h => absurd h.1 (show ¬ IsStreamStatus ngxError by decide)

/-- An open session has sent nothing. -/
def OpenUnsent (s : TimeSession) : Prop := s.finalized = [] → s.sent = []

theorem answerKept_of_unsent (hsent : s.sent = []) : AnswerKept s := by
  intro status _ send hsend
  rw [hsent] at hsend
  cases hsend

/-- The write handler of an open session keeps the answer exactly when it sends nothing. -/
theorem timeWriteHandler_answerKept_iff (o : TimeWriteOutcomes) (hsent : s.sent = []) :
    OpenUnsent (ngxStreamNdgTimeWriteHandler m o s) ∧
      (AnswerKept (ngxStreamNdgTimeWriteHandler m o s) ↔ ¬ TimeSends s.write o) := by
  obtain ⟨hsends, pool, out, h⟩ | ⟨hnot, pool, status, h⟩ | ⟨hnot, _, ev, _, h⟩ :=
    timeWriteHandler_cases m o s
  · rw [h]
    refine ⟨fun hnil => absurd hnil (List.cons_ne_nil _ _), iff_of_false ?_ (not_not.mpr hsends)⟩
    intro hkept
    exact not_statusFits_rc _ _ (hkept _ List.mem_cons_self _ rfl)
  · rw [h]
    exact ⟨fun _ => hsent, iff_of_true (answerKept_of_unsent hsent) hnot⟩
  · rw [h]
    exact ⟨fun _ => hsent, iff_of_true (answerKept_of_unsent hsent) hnot⟩

/-- The content handler registers both events, and the write handler that it calls sends. -/
def TimeHandlerSends (m : NgxEventModule) (read write : NgxEvent) (o : TimeHandlerOutcomes) :
    Prop :=
  m.handle o.readEvent { read with handler := .timeRead } ≠ none ∧
    m.handle o.writeEvent { write with handler := .timeWrite } ≠ none ∧ TimeSends write o.write

/-- The content handler finalizes the session when a registration fails, and ends in the write
handler otherwise, with an event that is as ready as before. -/
theorem timeHandler_cases (m : NgxEventModule) (o : TimeHandlerOutcomes) (s : TimeSession) :
    ((m.handle o.readEvent { s.read with handler := .timeRead } = none ∨
        m.handle o.writeEvent { s.write with handler := .timeWrite } = none) ∧
      ∃ u : TimeSession, ngxStreamNdgTimeHandler m o s = u.finalize ngxStreamInternalServerError ∧
        u.finalized = s.finalized ∧ u.sent = s.sent) ∨
    (m.handle o.readEvent { s.read with handler := .timeRead } ≠ none ∧
      m.handle o.writeEvent { s.write with handler := .timeWrite } ≠ none ∧
      ∃ u : TimeSession, ngxStreamNdgTimeHandler m o s = ngxStreamNdgTimeWriteHandler m o.write u ∧
        u.finalized = s.finalized ∧ u.sent = s.sent ∧
        ∃ active, u.write = { s.write with handler := .timeWrite, active := active }) := by
  cases hread : m.handle o.readEvent { s.read with handler := .timeRead } with
  | none =>
    refine .inl ⟨.inl rfl, { s with read := { s.read with handler := .timeRead } }, ?_, rfl, rfl⟩
    simp only [ngxStreamNdgTimeHandler, hread]
  | some read =>
    cases hwrite : m.handle o.writeEvent { s.write with handler := .timeWrite } with
    | none =>
      refine .inl ⟨.inr rfl, { s with
        read := read
        write := { s.write with handler := .timeWrite } }, ?_, rfl, rfl⟩
      simp only [ngxStreamNdgTimeHandler, hread, hwrite]
    | some write =>
      refine .inr ⟨Option.some_ne_none _, Option.some_ne_none _,
        { s with read := read, write := write }, ?_, rfl, rfl, write.active, ?_⟩
      · simp only [ngxStreamNdgTimeHandler, hread, hwrite]
      · exact m.handle_changes _ _ _ hwrite

theorem timeHandler_answerKept_iff (pool : NgxPool) (read write : NgxEvent)
    (o : TimeHandlerOutcomes) :
    OpenUnsent (ngxStreamNdgTimeHandler m o (.init pool read write)) ∧
      (AnswerKept (ngxStreamNdgTimeHandler m o (.init pool read write)) ↔
        ¬ TimeHandlerSends m read write o) := by
  obtain ⟨hfail, u, h, -, hsent⟩ | ⟨hread, hwrite, u, h, -, hsent, active, hu⟩ :=
    timeHandler_cases m o (.init pool read write)
  · rw [h]
    refine ⟨fun _ => hsent, iff_of_true (answerKept_of_unsent hsent) fun hsends => ?_⟩
    exact hfail.elim hsends.1 hsends.2.1
  · rw [h]
    obtain ⟨hunsent, hkept⟩ := @timeWriteHandler_answerKept_iff m u o.write hsent
    refine ⟨hunsent, hkept.trans (not_congr ?_)⟩
    rw [hu]
    exact ⟨fun hsends => ⟨hread, hwrite, hsends⟩, fun hsends => hsends.2.2⟩

theorem timeStep_answerKept_iff {e : TimeEvent} (hunsent : OpenUnsent s)
    (hstep : timeStep m s e = some t) : OpenUnsent t ∧ (AnswerKept t ↔ ¬ e.Sends s) := by
  obtain ⟨hopen, ⟨d, rfl, rfl⟩ | ⟨d, o, rfl, _, rfl⟩⟩ := timeStep_cases hstep
  · have hsent := hunsent hopen
    exact ⟨fun _ => hsent, iff_of_true (answerKept_of_unsent hsent) not_false⟩
  · exact timeWriteHandler_answerKept_iff o (hunsent hopen)

/-- **The answer is kept.** In every run of a time session, it is finalized behind a send with a
status that tells the result, and not before the line is written, exactly when neither the
content handler nor any event of the run sends the line at all. -/
theorem time_answer_kept_iff (m : NgxEventModule) (pool : NgxPool) (read write : NgxEvent)
    (o : TimeHandlerOutcomes) (es : List TimeEvent) :
    Along (timeStep m) AnswerKept (ngxStreamNdgTimeHandler m o (.init pool read write)) es ↔
      ¬ TimeHandlerSends m read write o ∧ Meets (timeStep m) (fun s e => ¬ e.Sends s)
        (ngxStreamNdgTimeHandler m o (.init pool read write)) es := by
  obtain ⟨hunsent, hkept⟩ := @timeHandler_answerKept_iff m pool read write o
  have hrun (hhead : AnswerKept (ngxStreamNdgTimeHandler m o (.init pool read write))) :
      Along (timeStep m) AnswerKept (ngxStreamNdgTimeHandler m o (.init pool read write)) es ↔
        Meets (timeStep m) (fun s e => ¬ e.Sends s)
          (ngxStreamNdgTimeHandler m o (.init pool read write)) es := by
    apply along_iff_meets_of_exact (I := OpenUnsent) _ _ hunsent hhead
    · intro s e t h hstep
      exact (timeStep_answerKept_iff h hstep).1
    · intro s e t h _ hstep
      exact (timeStep_answerKept_iff h hstep).2
  constructor
  · intro h
    exact ⟨hkept.mp h.head, (hrun h.head).mp h⟩
  · rintro ⟨hnot, hmeets⟩
    exact (hrun (hkept.mpr hnot)).mpr hmeets

/-- The connection takes a part of the line only, and the session is finalized with `-2` while
the rest is queued. -/
theorem time_answer_dropped :
    ¬ Along (timeStep ngxEpollModule) AnswerKept
      (ngxStreamNdgTimeHandler ngxEpollModule ⟨true, true, ⟨true, true, true, .again, 0⟩⟩
        (.init ⟨⟨fun _ => 0, fun _ _ => 0⟩, 64⟩ ⟨.session, false, none, false, false⟩
          ⟨.session, false, none, true, false⟩)) [] := by
  intro h
  exact not_statusFits_rc false .again (h _ List.mem_cons_self _ rfl)

end NgxNdg
