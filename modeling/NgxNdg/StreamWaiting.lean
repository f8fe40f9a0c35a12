import NgxNdg.Lib.Run
import NgxNdg.StreamDiscard.Model
import NgxNdg.StreamTime.Answer

/-!
# No session waits without a timer

Each handler of the two servers leaves the session finalized once, or with the event it waits for
registered, its handler installed and its timer armed. A discard session is finalized for three
reasons only, and `NGX_AGAIN` is none of them: it has cleared `ready`, so that the event is
registered again.

## Main definitions

- `DiscardFinalizes`: the reasons to finalize a discard session, read off what the read handler
  is given
-/

namespace NgxNdg

open Transition

/-- The client has closed, or the connection is broken: the first call of `c->recv` that has
brought nothing has returned 0 or an error. -/
def RecvEnds (recv : RecvResults) : Prop :=
  ∃ n, recv.results.find? (fun n => n ≤ 0) = some n ∧ n ≠ ngxAgain

/-- The session is over for its read handler. -/
def DiscardStops (ev : NgxEvent) (o : DiscardReadOutcomes) : Prop :=
  ev.timedout = true ∨ ev.ready = true ∧ RecvEnds o.recv

/-- The session is over, or its read event, which is not ready any more, cannot be registered
again. -/
def DiscardFinalizes (m : NgxEventModule) (ev : NgxEvent) (o : DiscardReadOutcomes) : Prop :=
  DiscardStops ev o ∨ m.handle o.readEvent { ev with ready := false } = none

/-- A registration of the content handler fails, or the read handler that it calls finalizes the
session. -/
def DiscardHandlerFinalizes (m : NgxEventModule) (read write : NgxEvent)
    (o : DiscardHandlerOutcomes) : Prop :=
  m.handle o.writeEvent { write with handler := .discardWrite } = none ∨
    ∀ ev, m.handle o.readEvent { read with handler := .discardRead } = some ev →
      DiscardFinalizes m ev o.read

theorem find_recvLoop {results : List ℤ} (hstops : ∃ n ∈ results, n ≤ 0) (ev : NgxEvent) :
    results.find? (fun n => n ≤ 0) = some (discardRecvLoop results ev).1 := by
  induction results generalizing ev with
  | nil =>
    obtain ⟨n, hn, _⟩ := hstops
    cases hn
  | cons m results ih =>
    by_cases hm : m ≤ 0
    · rw [discardRecvLoop, if_pos hm, List.find?_cons_of_pos (by simpa using hm)]
    · rw [discardRecvLoop, if_neg hm, List.find?_cons_of_neg (by simpa using hm)]
      apply ih
      obtain ⟨n, hn, hle⟩ := hstops
      obtain rfl | hin := List.mem_cons.mp hn
      · exact absurd hle hm
      · exact ⟨n, hin, hle⟩

theorem recvEnds_iff (recv : RecvResults) (ev : NgxEvent) :
    RecvEnds recv ↔ (discardRecvLoop recv.results ev).1 ≠ ngxAgain := by
  rw [RecvEnds, find_recvLoop recv.stops ev]
  constructor
  · rintro ⟨n, hn, hagain⟩
    rwa [Option.some.inj hn]
  · intro hagain
    exact ⟨_, rfl, hagain⟩

/-- The loop leaves the event as it was, but not ready when it ends with `NGX_AGAIN`. -/
theorem discardRecvLoop_event (results : List ℤ) (ev : NgxEvent) :
    (discardRecvLoop results ev).2 = ngxRecv (discardRecvLoop results ev).1 ev := by
  induction results with
  | nil => rfl
  | cons n results ih =>
    by_cases hn : n ≤ 0
    · simp only [discardRecvLoop, if_pos hn]
    · -- a call that has brought bytes has not returned `NGX_AGAIN`
      have hagain : n ≠ ngxAgain := fun h => hn (h ▸ by decide)
      have hev : ngxRecv n ev = ev := if_neg hagain
      simp only [discardRecvLoop, if_neg hn, hev]
      exact ih

variable {m : NgxEventModule} {timeout : ℕ} {s t : NgxStreamSession} {o : DiscardReadOutcomes}

/-- What the read handler reads, when its event has not timed out. -/
theorem recv_cases (o : DiscardReadOutcomes) (ev : NgxEvent) :
    (ev.ready = true ∧ RecvEnds o.recv ∧ ∃ n,
      (if ev.ready then discardRecvLoop o.recv.results ev else (ngxAgain, ev)) = (n, ev) ∧
        n ≠ ngxAgain) ∨
    (¬ (ev.ready = true ∧ RecvEnds o.recv) ∧
      (if ev.ready then discardRecvLoop o.recv.results ev else (ngxAgain, ev)) =
        (ngxAgain, { ev with ready := false })) := by
  have hloop := discardRecvLoop_event o.recv.results ev
  cases hready : ev.ready with
  | false =>
    refine .inr ⟨fun h => Bool.false_ne_true h.1, ?_⟩
    rw [if_neg Bool.false_ne_true, ← hready]
  | true =>
    rw [if_pos rfl]
    by_cases hends : RecvEnds o.recv
    · have hne := (recvEnds_iff o.recv ev).mp hends
      refine .inl ⟨rfl, hends, _, Prod.ext rfl ?_, hne⟩
      rw [hloop, ngxRecv, if_neg hne]
    · have hagain := not_not.mp (mt (recvEnds_iff o.recv ev).mpr hends)
      refine .inr ⟨fun h => hends h.2, Prod.ext hagain ?_⟩
      rw [hloop, hagain]
      rfl

/-- What the read handler can do. -/
theorem discardReadHandler_cases (m : NgxEventModule) (timeout : ℕ) (o : DiscardReadOutcomes)
    (s : NgxStreamSession) :
    (DiscardStops s.read o ∧ ngxStreamNdgDiscardReadHandler m timeout o s =
      ngxStreamFinalizeSession s ngxStreamOk) ∨
    (m.handle o.readEvent { s.read with ready := false } = none ∧
      ngxStreamNdgDiscardReadHandler m timeout o s =
        ngxStreamFinalizeSession { s with read := { s.read with ready := false } }
          ngxStreamInternalServerError) ∨
    (¬ DiscardStops s.read o ∧ ∃ ev,
      m.handle o.readEvent { s.read with ready := false } = some ev ∧
        ngxStreamNdgDiscardReadHandler m timeout o s =
          { s with read := ngxAddTimer ev timeout }) := by
  unfold ngxStreamNdgDiscardReadHandler
  by_cases htimedout : s.read.timedout = true
  · rw [if_pos htimedout]
    exact .inl ⟨.inl htimedout, rfl⟩
  rw [if_neg htimedout]
  obtain ⟨hready, hends, n, hrecv, hne⟩ | ⟨hnot, hrecv⟩ := recv_cases o s.read
  · simp only [hrecv, if_neg hne]
    exact .inl ⟨.inr ⟨hready, hends⟩, trivial⟩
  · have hstops : ¬ DiscardStops s.read o := fun h => h.elim htimedout hnot
    simp only [hrecv, if_true]
    cases hevent : m.handle o.readEvent { s.read with ready := false } with
    | none => exact .inr (.inl ⟨rfl, rfl⟩)
    | some ev => exact .inr (.inr ⟨hstops, ev, rfl, rfl⟩)

/-- The read handler, installed in the event, leaves an open session settled. -/
theorem discardReadHandler_settled (hopen : s.finalized = [])
    (hhandler : s.read.handler = .discardRead) :
    (ngxStreamNdgDiscardReadHandler m timeout o s).Settled
      (ngxStreamNdgDiscardReadHandler m timeout o s).read .discardRead := by
  obtain ⟨_, h⟩ | ⟨_, h⟩ | ⟨_, ev, hevent, h⟩ := discardReadHandler_cases m timeout o s
  · rw [h]
    exact .of_finalize hopen _ _ _
  · rw [h]
    apply NgxStreamSession.Settled.of_finalize
    exact hopen
  · have hwaiting : s.Waiting (ngxAddTimer ev timeout) s.read.handler :=
      .of_handle hevent rfl hopen timeout
    rw [h, ← hhandler]
    exact .of_waiting ⟨hopen, hwaiting.active, hwaiting.handler, hwaiting.timer⟩

theorem discardReadHandler_finalized_iff (hopen : s.finalized = []) :
    (ngxStreamNdgDiscardReadHandler m timeout o s).finalized ≠ [] ↔
      DiscardFinalizes m s.read o := by
  obtain ⟨hstops, h⟩ | ⟨hfail, h⟩ | ⟨hstops, ev, hevent, h⟩ :=
    discardReadHandler_cases m timeout o s
  · rw [h]
    exact iff_of_true (List.cons_ne_nil _ _) (.inl hstops)
  · rw [h]
    exact iff_of_true (List.cons_ne_nil _ _) (.inr hfail)
  · rw [h]
    refine iff_of_false (not_not.mpr hopen) fun hfinalizes => ?_
    obtain hstop | hfail := hfinalizes
    · exact hstops hstop
    · exact Option.some_ne_none ev (hevent.symm.trans hfail)

/-- The content handler finalizes the session when a registration fails, and ends in the read
handler otherwise. -/
theorem discardHandler_cases (m : NgxEventModule) (timeout : ℕ) (o : DiscardHandlerOutcomes)
    (s : NgxStreamSession) :
    ((m.handle o.writeEvent { s.write with handler := .discardWrite } = none ∨
        m.handle o.readEvent { s.read with handler := .discardRead } = none) ∧
      ∃ u : NgxStreamSession, ngxStreamNdgDiscardHandler m timeout o s =
        ngxStreamFinalizeSession u ngxStreamInternalServerError ∧ u.finalized = s.finalized) ∨
    (m.handle o.writeEvent { s.write with handler := .discardWrite } ≠ none ∧
      ∃ u : NgxStreamSession,
        m.handle o.readEvent { s.read with handler := .discardRead } = some u.read ∧
        ngxStreamNdgDiscardHandler m timeout o s =
          ngxStreamNdgDiscardReadHandler m timeout o.read u ∧ u.finalized = s.finalized) := by
  cases hwrite : m.handle o.writeEvent { s.write with handler := .discardWrite } with
  | none =>
    refine .inl ⟨.inl rfl, { s with write := { s.write with handler := .discardWrite } }, ?_, rfl⟩
    simp only [ngxStreamNdgDiscardHandler, hwrite]
  | some write =>
    cases hread : m.handle o.readEvent { s.read with handler := .discardRead } with
    | none =>
      refine .inl ⟨.inr rfl, { s with
        write := write
        read := { s.read with handler := .discardRead } }, ?_, rfl⟩
      simp only [ngxStreamNdgDiscardHandler, hwrite, hread]
    | some read =>
      refine .inr ⟨Option.some_ne_none _, { s with write := write, read := read }, rfl, ?_, rfl⟩
      simp only [ngxStreamNdgDiscardHandler, hwrite, hread]

theorem discardHandler_settled (timeout : ℕ) (o : DiscardHandlerOutcomes)
    (hopen : s.finalized = []) :
    (ngxStreamNdgDiscardHandler m timeout o s).Settled
      (ngxStreamNdgDiscardHandler m timeout o s).read .discardRead := by
  obtain ⟨_, u, h, hu⟩ | ⟨_, u, hread, h, hu⟩ := discardHandler_cases m timeout o s
  · rw [h]
    exact .of_finalize (hu.trans hopen) _ _ _
  · rw [h]
    have hhandler : u.read.handler = .discardRead := by
      rw [m.handle_changes _ _ _ hread]
    exact discardReadHandler_settled (hu.trans hopen) hhandler

theorem discardHandler_finalized_iff (timeout : ℕ) (o : DiscardHandlerOutcomes)
    (hopen : s.finalized = []) :
    (ngxStreamNdgDiscardHandler m timeout o s).finalized ≠ [] ↔
      DiscardHandlerFinalizes m s.read s.write o := by
  obtain ⟨hfail, u, h, _⟩ | ⟨hwrite, u, hread, h, hu⟩ := discardHandler_cases m timeout o s
  · rw [h]
    refine iff_of_true (List.cons_ne_nil _ _) (hfail.imp_right fun hnone ev hsome => ?_)
    exact absurd (hnone.symm.trans hsome) (Option.some_ne_none ev).symm
  · rw [h, discardReadHandler_finalized_iff (hu.trans hopen)]
    constructor
    · intro hfinalizes
      refine .inr fun ev hev => ?_
      rwa [← Option.some.inj (hread.symm.trans hev)]
    · rintro (hnone | hall)
      · exact absurd hnone hwrite
      · exact hall u.read hread

theorem discardStep_settled {e : DiscardEvent} (h : s.Settled s.read .discardRead)
    (hstep : discardStep m timeout s e = some t) : t.Settled t.read .discardRead := by
  obtain ⟨hopen, ⟨d, o, rfl, hhandler, rfl⟩ | ⟨d, rfl, rfl⟩⟩ := discardStep_cases hstep
  · exact discardReadHandler_settled hopen hhandler
  · have hwaiting := h.waiting hopen
    exact .of_waiting ⟨hwaiting.opened, hwaiting.active, hwaiting.handler, hwaiting.timer⟩

/-- The reason an event gives to finalize a discard session. -/
def DiscardEvent.Finalizes (m : NgxEventModule) (s : NgxStreamSession) : DiscardEvent → Prop
  | .read d o => DiscardFinalizes m (s.read.deliver d) o
  | .write _ => False

theorem discardStep_finalized_iff {e : DiscardEvent}
    (hstep : discardStep m timeout s e = some t) : t.finalized ≠ [] ↔ e.Finalizes m s := by
  obtain ⟨hopen, ⟨d, o, rfl, _, rfl⟩ | ⟨d, rfl, rfl⟩⟩ := discardStep_cases hstep
  · exact discardReadHandler_finalized_iff hopen
  · exact iff_of_false (not_not.mpr hopen) not_false

theorem timeHandler_settled (o : TimeHandlerOutcomes) {s : TimeSession}
    (hopen : s.finalized = []) :
    (ngxStreamNdgTimeHandler m o s).Settled (ngxStreamNdgTimeHandler m o s).write .timeWrite := by
  obtain ⟨_, u, h, hu, _⟩ | ⟨_, _, u, h, hu, _, active, hwrite⟩ := timeHandler_cases m o s
  · rw [h]
    apply NgxStreamSession.Settled.of_finalize
    exact hu.trans hopen
  · rw [h]
    have hhandler : u.write.handler = .timeWrite := by rw [hwrite]
    exact timeWriteHandler_settled _ (hu.trans hopen) hhandler

theorem timeStep_settled {s t : TimeSession} {e : TimeEvent} (h : s.Settled s.write .timeWrite)
    (hstep : timeStep m s e = some t) : t.Settled t.write .timeWrite := by
  obtain ⟨hopen, ⟨d, rfl, rfl⟩ | ⟨d, o, rfl, hhandler, rfl⟩⟩ := timeStep_cases hstep
  · have hwaiting := h.waiting hopen
    exact .of_waiting ⟨hwaiting.opened, hwaiting.active, hwaiting.handler, hwaiting.timer⟩
  · exact timeWriteHandler_settled _ hopen hhandler

/-- **No session waits without a timer.** In every run of a discard or a time session, each
handler leaves the session finalized once, or waiting for its handler with a timer. A discard
session is finalized exactly when its client has closed, its read event has timed out, or an event
could not be registered. -/
theorem stream_settled (m : NgxEventModule) :
    (∀ timeout pool read write o es,
      Along (discardStep m timeout) (fun s => s.Settled s.read .discardRead)
        (ngxStreamNdgDiscardHandler m timeout o (.init pool read write)) es) ∧
    (∀ pool read write o es,
      Along (timeStep m) (fun s => s.Settled s.write .timeWrite)
        (ngxStreamNdgTimeHandler m o (.init pool read write)) es) ∧
    (∀ timeout pool read write o,
      (ngxStreamNdgDiscardHandler m timeout o (.init pool read write)).finalized ≠ [] ↔
        DiscardHandlerFinalizes m read write o) ∧
    ∀ timeout s e t, discardStep m timeout s e = some t →
      (t.finalized ≠ [] ↔ e.Finalizes m s) := by
  refine ⟨?_, ?_, ?_, ?_⟩
  · intro timeout pool read write o es
    apply Along.of_invariant fun s e t h hstep => discardStep_settled h hstep
    exact discardHandler_settled timeout o rfl
  · intro pool read write o es
    apply Along.of_invariant fun s e t h hstep => timeStep_settled h hstep
    exact timeHandler_settled o rfl
  · intro timeout pool read write o
    exact discardHandler_finalized_iff timeout o rfl
  · intro timeout s e t hstep
    exact discardStep_finalized_iff hstep

/-- A client sends 5 bytes and then nothing for too long: behind the content handler and
`NGX_AGAIN` the session waits, and the timeout finalizes it. -/
theorem stream_settled_timeout :
    ∃ s t, ngxStreamNdgDiscardHandler ngxEpollModule 5000
        ⟨true, true, ⟨⟨[5, ngxAgain], ngxAgain, by decide, by decide⟩, true⟩⟩
        (.init ⟨⟨fun _ => 0, fun _ _ => 0⟩, 64⟩ ⟨.session, false, none, true, false⟩
          ⟨.session, false, none, true, false⟩) = s ∧
      discardStep ngxEpollModule 5000 s
        (.read ⟨false, true, true⟩ ⟨⟨[0], 0, by decide, by decide⟩, true⟩) = some t ∧
      s.Settled s.read .discardRead ∧ s.Waiting s.read .discardRead ∧
      t.Settled t.read .discardRead ∧ t.finalized = [ngxStreamOk] := by
  have hrun := (stream_settled ngxEpollModule).1 5000 ⟨⟨fun _ => 0, fun _ _ => 0⟩, 64⟩
    ⟨.session, false, none, true, false⟩ ⟨.session, false, none, true, false⟩
    ⟨true, true, ⟨⟨[5, ngxAgain], ngxAgain, by decide, by decide⟩, true⟩⟩
    [.read ⟨false, true, true⟩ ⟨⟨[0], 0, by decide, by decide⟩, true⟩]
  exact ⟨_, _, rfl, rfl, hrun.1, hrun.1.waiting rfl, hrun.2 _ rfl, rfl⟩

end NgxNdg
