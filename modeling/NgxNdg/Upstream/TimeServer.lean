import NgxNdg.StreamTime.Line
import NgxNdg.Upstream.Connection

/-!
# The time server behind the upstream

A location passes its requests to a time server. The server sends its line at once, behind any
number of waits, or never, and the time in it is the one of that moment; the upstream module reads
whatever has come, whenever it comes. What the filter has taken may still be cut off with the
connection, and then the client reads no more of it.

## Main definitions

- `TimeSession.bytes`: the bytes given to the filter
- `TimeSent`, `TimeSettled`: what a session has sent, and the line it has settled
- `TimeAnswered`: what the client has of it
-/

namespace NgxNdg

open Decimal ScopeTree Transition

/-- The bytes of all chains given to the filter, in their order. -/
def TimeSession.bytes (s : TimeSession) : List UInt8 :=
  chainBytes s.pool.toStore (s.sent.reverse.map Prod.fst).flatten

/-- The time at the event is one of `times`, if the write handler is called. -/
def TimeEvent.Prints (times : ℤ → Prop) : TimeEvent → Prop
  | .read _ => True
  | .write _ o => times o.time

/-- A session has sent nothing, or it is over and has sent the line of one of `times`. -/
def TimeSent (times : ℤ → Prop) (s : TimeSession) : Prop :=
  s.sent = [] ∨ s.finalized ≠ [] ∧ ∃ time, times time ∧ s.bytes = timeLine time

/-- The session is over, and `line` is what it has sent. -/
structure TimeSettled (times : ℤ → Prop) (s : TimeSession) (line : List UInt8) : Prop where
  ended : s.finalized ≠ []
  bytes : s.bytes = line ++ [lf]
  time : ∃ time, times time ∧ line = ngxSprintfNum time.toNat

/-- The client has read nothing, or it has a part of the one line that the server has sent. -/
def TimeAnswered (times : ℤ → Prop) (size : ℕ) (c : UpstreamConnection TimeSession) : Prop :=
  c.read = 0 ∧ Reading size [] c.client ∨
    ∃ time digits, times time ∧ IsNumeral time.toNat digits ∧ c.server.finalized ≠ [] ∧
      c.server.bytes = digits ++ [lf] ∧ LineRead size digits c.read c.client

variable {m : NgxEventModule} {times : ℤ → Prop} {s t : TimeSession} {line : List UInt8} {size : ℕ}

theorem TimeSession.bytes_of_unsent (h : s.sent = []) : s.bytes = [] := by
  unfold TimeSession.bytes
  rw [h]
  rfl

/-- The write handler of a session that has sent nothing. -/
theorem timeWriteHandler_timeSent {o : TimeWriteOutcomes} (hsent : s.sent = [])
    (htime : times o.time) (hfit : (timeLine o.time).length ≤ 20) :
    TimeSent times (ngxStreamNdgTimeWriteHandler m o s) := by
  by_cases hsends : TimeSends s.write o
  · rw [timeWriteHandler_sends hsends]
    refine .inr ⟨List.cons_ne_nil _ _, o.time, htime, ?_⟩
    show chainBytes (timePrint o s.pool).1.toStore
      ((([timeBuf o s.pool], o.topFilter) :: s.sent).reverse.map Prod.fst).flatten = _
    rw [hsent]
    show chainBytes (timePrint o s.pool).1.toStore [timeBuf o s.pool] = _
    rw [chainBytes_cons, chainBytes_nil, List.append_nil, timeBuf_bytes s.pool hfit]
  · obtain ⟨h, -⟩ | ⟨-, pool, status, h⟩ | ⟨-, -, ev, -, h⟩ := timeWriteHandler_cases m o s
    · exact absurd h hsends
    · rw [h]
      exact .inl hsent
    · rw [h]
      exact .inl hsent

theorem timeHandler_timeSent {o : TimeHandlerOutcomes} (hsent : s.sent = [])
    (htime : times o.write.time) (hfit : (timeLine o.write.time).length ≤ 20) :
    TimeSent times (ngxStreamNdgTimeHandler m o s) := by
  obtain ⟨-, u, h, -, hu⟩ | ⟨-, -, u, h, -, hu, -⟩ := timeHandler_cases m o s
  · rw [h]
    exact .inl (hu.trans hsent)
  · rw [h]
    exact timeWriteHandler_timeSent (hu.trans hsent) htime hfit

/-- A session sends once: behind its line it is over. -/
theorem TimeSent.step {e : TimeEvent} (h : TimeSent times s)
    (hfits : ∀ time, times time → (timeLine time).length ≤ 20) (he : e.Prints times)
    (hstep : timeStep m s e = some t) : TimeSent times t := by
  obtain ⟨hopen, hcases⟩ := timeStep_cases hstep
  obtain hsent | ⟨hover, -⟩ := h
  · obtain ⟨d, rfl, rfl⟩ | ⟨d, o, rfl, -, rfl⟩ := hcases
    · exact .inl hsent
    · exact timeWriteHandler_timeSent hsent he (hfits o.time he)
  · exact absurd hopen hover

theorem TimeSent.settles (h : TimeSent times s) (hrange : ∀ time, times time → 0 ≤ time)
    (hbytes : s.bytes ≠ []) : ∃ line, TimeSettled times s line := by
  obtain hsent | ⟨hover, time, htime, hline⟩ := h
  · exact absurd (TimeSession.bytes_of_unsent hsent) hbytes
  · rw [timeLine_of_nonneg (hrange time htime)] at hline
    exact ⟨_, hover, hline, time, htime, rfl⟩

theorem TimeSettled.fits (h : TimeSettled times s line)
    (hrange : ∀ time, times time → 0 ≤ time ∧ time < 2 ^ 63) : line.length + 1 ≤ 20 := by
  obtain ⟨time, htime, rfl⟩ := h.time
  obtain ⟨hnonneg, hlt⟩ := hrange time htime
  have hlength := length_timeLine_le hnonneg hlt
  rwa [timeLine_of_nonneg hnonneg, List.length_append, List.length_singleton] at hlength

/-- A time server sends one line at most. -/
theorem timeServer_sendsLine (m : NgxEventModule)
    (hrange : ∀ time, times time → 0 ≤ time ∧ time < 2 ^ 63) (hsize : 20 ≤ size) :
    SendsLine (timeStep m) TimeSession.bytes (TimeEvent.Prints times) (TimeSent times)
      (TimeSettled times) size where
  keep := by
    intro s e t he h hstep
    exact h.step (fun time htime => length_timeLine_le (hrange time htime).1 (hrange time htime).2)
      he hstep
  settles := fun s h hbytes => h.settles (fun time htime => (hrange time htime).1) hbytes
  sends := by
    intro s line _ hline
    rw [hline.bytes]
  line_keep := by
    intro s e t line _ hline hstep
    exact absurd (timeStep_cases hstep).1 hline.ended
  no_lf := by
    intro s line hline
    obtain ⟨time, -, rfl⟩ := hline.time
    exact lf_not_mem_numeral (ngxSprintfNum_isNumeral time.toNat)
  fits := fun s line hline => (hline.fits hrange).trans hsize

theorem ConnectionInv.timeAnswered {c : UpstreamConnection TimeSession}
    (h : ConnectionInv (TimeSent times) (TimeSettled times) size c) :
    TimeAnswered times size c := by
  obtain hnone | ⟨line, hsettled, hread⟩ := h.client
  · exact .inl hnone
  · obtain ⟨time, htime, rfl⟩ := hsettled.time
    exact .inr ⟨time, _, htime, ngxSprintfNum_isNumeral time.toNat, hsettled.ended, hsettled.bytes,
      hread⟩

/-- The times at which a write handler may print: that of the call of the content handler, and
those of the events. -/
def TimeOf (o : TimeHandlerOutcomes) (es : List (ConnectionEvent TimeEvent)) (time : ℤ) : Prop :=
  time = o.write.time ∨ ∃ d wo, .server (.write d wo) ∈ es ∧ time = wo.time

theorem allowed_timeOf (o : TimeHandlerOutcomes) (es : List (ConnectionEvent TimeEvent)) :
    ∀ e ∈ es, e.Allowed (TimeEvent.Prints (TimeOf o es)) := by
  intro e he
  cases e with
  | clientRead k => trivial
  | server e =>
    cases e with
    | read d => trivial
    | write d wo => exact .inr ⟨d, wo, he, rfl⟩

/-- The buffer of every location has room for the line of a time. -/
theorem length_timeLine_le_bufferSize {κ : Type*} {locations : Scope (LocDirectives κ)}
    {p : List ℕ} {conf : LocConfs κ}
    (hconf : (mergeLocations locations).label? p = some conf) :
    20 ≤ conf.upstream.bufferSize.toNat := by
  rw [(upstream_numbers hconf).2.2.2]
  decide

/-- The invariant of the two ends along a run. -/
theorem timeServer_along {u : NgxHttpUpstream} (hu : u.inputFilter = none) (m : NgxEventModule)
    (o : TimeHandlerOutcomes) (pool : NgxPool) (read write : NgxEvent) (st : Store) (start : ℕ)
    (hsize : 20 ≤ size) (es : List (ConnectionEvent TimeEvent))
    (htimes : ∀ time, TimeOf o es time → 0 ≤ time ∧ time < 2 ^ 63) :
    Along (connectionStep (timeStep m) TimeSession.bytes)
      (ConnectionInv (TimeSent (TimeOf o es)) (TimeSettled (TimeOf o es)) size)
      { client := .init st u start size
        read := 0
        server := ngxStreamNdgTimeHandler m o (.init pool read write) } es := by
  have htime : TimeOf o es o.write.time := .inl rfl
  have hfit := length_timeLine_le (htimes _ htime).1 (htimes _ htime).2
  have hserver : TimeSent (TimeOf o es) (ngxStreamNdgTimeHandler m o (.init pool read write)) :=
    timeHandler_timeSent rfl htime hfit
  have hclient : Reading size [] (.init st u start size) := .init st start size hu
  exact (timeServer_sendsLine m htimes hsize).connection_along ⟨hserver, .inl ⟨rfl, hclient⟩⟩
    (allowed_timeOf o es)

/-- **The time server behind the upstream.** In every location, and in every interleaving of the
events of a time session with the reads of the upstream module, the client has read nothing, or the
session is over and has sent one line, the digits of a time at which the write handler was called:
the client waits with a part of the digits, or it has them all and their number. -/
theorem time_connection {κ : Type*} {locations : Scope (LocDirectives κ)} {p : List ℕ}
    {conf : LocConfs κ} (hconf : (mergeLocations locations).label? p = some conf)
    {u : NgxHttpUpstream} {methodGet create : Bool} {discardBody count : ℤ}
    (hu : (ngxHttpNdgUpstreamHandler methodGet discardBody create count).1 = some u)
    (m : NgxEventModule) (o : TimeHandlerOutcomes) (pool : NgxPool) (read write : NgxEvent)
    (st : Store) (start : ℕ) (es : List (ConnectionEvent TimeEvent))
    (htimes : ∀ time, TimeOf o es time → 0 ≤ time ∧ time < 2 ^ 63) :
    Along (connectionStep (timeStep m) TimeSession.bytes)
      (TimeAnswered (TimeOf o es) conf.upstream.bufferSize.toNat)
      { client := .init st u start conf.upstream.bufferSize.toNat
        read := 0
        server := ngxStreamNdgTimeHandler m o (.init pool read write) } es := by
  have hinv := timeServer_along (upstreamHandler_inputFilter hu) m o pool read write st start
    (length_timeLine_le_bufferSize hconf) es htimes
  exact hinv.mono fun c h => h.timeAnswered

/-- A time server that waits first, and whose line is read in two pieces. -/
def waitingServer : List (ConnectionEvent TimeEvent) :=
  [.server (.write ⟨true, false, true⟩ ⟨true, true, true, .ok, 8⟩), .clientRead 1, .clientRead 1]

theorem timeOf_waitingServer :
    ∀ time, TimeOf ⟨true, true, ⟨true, true, true, .ok, 7⟩⟩ waitingServer time →
      0 ≤ time ∧ time < 2 ^ 63 := by
  rintro time (rfl | ⟨d, wo, hmem, rfl⟩)
  · decide
  · obtain hhead | hmem := List.mem_cons.mp hmem
    · cases hhead
      decide
    · simp at hmem

theorem exec_waitingServer :
    ∃ c, exec (connectionStep (timeStep ngxEpollModule) TimeSession.bytes)
      { client := .init ⟨fun _ => 0, fun _ _ => 0⟩ ngxHttpUpstreamCreate 0 4096
        read := 0
        server := ngxStreamNdgTimeHandler ngxEpollModule ⟨true, true, ⟨true, true, true, .ok, 7⟩⟩
          (.init ⟨⟨fun _ => 0, fun _ _ => 0⟩, 64⟩ ⟨.session, false, none, false, false⟩
            ⟨.session, false, none, false, false⟩) } waitingServer = some c ∧
      c.read = 2 ∧ c.server.bytes = [56] ++ [lf] := ⟨_, rfl, rfl, rfl⟩

/-- The time is the one at which the connection is ready. -/
theorem time_connection_waits :
    ∃ c, exec (connectionStep (timeStep ngxEpollModule) TimeSession.bytes)
      { client := .init ⟨fun _ => 0, fun _ _ => 0⟩ ngxHttpUpstreamCreate 0 4096
        read := 0
        server := ngxStreamNdgTimeHandler ngxEpollModule ⟨true, true, ⟨true, true, true, .ok, 7⟩⟩
          (.init ⟨⟨fun _ => 0, fun _ _ => 0⟩, 64⟩ ⟨.session, false, none, false, false⟩
            ⟨.session, false, none, false, false⟩) } waitingServer = some c ∧
      HeaderRead [56] c.client ∧ c.client.delivered = [56] := by
  have hconf : (mergeLocations (.node (LocDirectives.empty : LocDirectives ℕ) [])).label? [] =
      some (.merge .create (.parse .empty)) := rfl
  have hu : (ngxHttpNdgUpstreamHandler true ngxOk true 1).1 = some ngxHttpUpstreamCreate := rfl
  have hrun := time_connection hconf hu ngxEpollModule ⟨true, true, ⟨true, true, true, .ok, 7⟩⟩
    ⟨⟨fun _ => 0, fun _ _ => 0⟩, 64⟩ ⟨.session, false, none, false, false⟩
    ⟨.session, false, none, false, false⟩ ⟨fun _ => 0, fun _ _ => 0⟩ 0 waitingServer
    timeOf_waitingServer
  obtain ⟨c, hc, hread, hbytes⟩ := exec_waitingServer
  obtain ⟨hnone, -⟩ | ⟨time, digits, -, -, -, hline, hpart⟩ :=
    along_iff_exec.mp hrun waitingServer List.prefix_rfl c hc
  · rw [hread] at hnone
    cases hnone
  · rw [hbytes] at hline
    obtain rfl := (List.append_inj' hline rfl).1
    exact ⟨c, hc, hpart.ok (by rw [hread]; decide)⟩

end NgxNdg
