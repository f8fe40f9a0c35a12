import NgxNdg.Filter.Framing
import NgxNdg.Http.Response
import NgxNdg.Upstream.EchoLoop
import NgxNdg.Upstream.TimeServer

/-!
# The line through the filters

The headers of an upstream response are sent when the line feed has come, with the length of the
line; the body is what is delivered, in any chains. The filters of the filter module treat both
like those of any other response. Behind the gateway may stand one of the two servers that answer
with a line: the client then gets its arguments back, or a time.

## Main definitions

- `FramedLine`: what the client of the gateway gets of a line
-/

namespace NgxNdg

open Decimal FirstMark ScopeTree Transition

/-- What the filters make of a body `calls` when `d` has been announced: the bytes forwarded. -/
theorem forwarded_bytes (lcf : NgxHttpNdgFilterLocConf) (hs : List NgxTableElt) (st : Store)
    {d : ℤ} {calls : List NgxChain} (hmark : EndsMarked calls) :
    ∃ r' out, bodyFilterCallsOk lcf (headerPass lcf (.fresh hs) d) calls = some (r', out) ∧
      chainBytes st out.flatten = chainBytes st calls.flatten ++
        if lcf.headers.isSome ∨ 0 < d then lcf.footer.bytes st else [] := by
  obtain ⟨r', hrun⟩ := bodyFilterCallsOk_headerPass lcf hs d calls
  refine ⟨r', _, hrun, ?_⟩
  by_cases hf : lcf.footer.len = 0
  · rw [if_neg fun h => h.1 hf,
      List.eq_nil_of_length_eq_zero ((NgxStr.length_bytes st lcf.footer).trans hf), ite_self,
      List.append_nil]
  by_cases hset : lcf.headers.isSome ∨ 0 < d
  · obtain ⟨body, hout, -, hbytes⟩ := footerCalls_flatten lcf.footer hmark
    rw [if_pos ⟨hf, hset⟩, if_pos hset, hout, chainBytes_append, hbytes st, chainBytes_cons,
      footerBuf_bytes, chainBytes_nil, List.append_nil]
  · rw [if_neg fun h => hset h.2, if_neg hset, List.append_nil]

/-- A line and what is read behind it, through the filters. -/
theorem framed_of_delivered (lcf : NgxHttpNdgFilterLocConf) (hs : List NgxTableElt)
    {line rest : List UInt8} {r : UpstreamReader} (hannounced : r.u.contentLengthN = line.length)
    (hdelivered : r.delivered = line ++ rest) {st : Store} {calls : List NgxChain}
    (hmark : EndsMarked calls) (hcalls : chainBytes st calls.flatten = r.delivered) :
    ∃ r' out, bodyFilterCallsOk lcf (headerPass lcf (.fresh hs) r.u.contentLengthN) calls =
        some (r', out) ∧
      chainBytes st out.flatten = line ++ rest ++
        (if lcf.headers.isSome ∨ line ≠ [] then lcf.footer.bytes st else []) ∧
      (((chainBytes st out.flatten).length : ℤ) =
          (headerPass lcf (.fresh hs) r.u.contentLengthN).contentLengthN ↔
        rest = [] ∧ (lcf.footer.len = 0 ∨ lcf.headers = none ∨ line ≠ [])) := by
  obtain ⟨r', out, hrun, hbytes⟩ := @forwarded_bytes lcf hs st r.u.contentLengthN calls hmark
  have hset : (lcf.headers.isSome ∨ 0 < r.u.contentLengthN) ↔
      (lcf.headers.isSome ∨ line ≠ []) := by
    rw [hannounced, ← List.length_pos_iff]
    exact or_congr_right Int.natCast_pos
  rw [if_congr hset rfl rfl, hcalls, hdelivered] at hbytes
  refine ⟨r', out, hrun, hbytes, ?_⟩
  have hlength : (headerPass lcf (.fresh hs) (line.length : ℤ)).contentLengthN =
      announcedLength lcf line :=
    (headerPass_of_flag_zero lcf (line.length : ℤ) (FilterRequest.flag_fresh hs)).2
  rw [hannounced]
  have hfooter := NgxStr.length_bytes st lcf.footer
  rw [hlength, hbytes, ← @framed_iff lcf line _ hfooter]
  constructor
  · intro h
    have hle := @announced_le lcf line _ hfooter
    have hzero : rest.length = 0 := by
      simp only [List.length_append] at hle h
      omega
    have hnil := List.eq_nil_of_length_eq_zero hzero
    rw [hnil, List.append_nil] at h
    exact ⟨hnil, h⟩
  · rintro ⟨hnil, h⟩
    rw [hnil, List.append_nil]
    exact h

/-- **Framing behind the gateway.** However the bytes of an upstream server are split into reads,
and what is delivered into chains, the client gets the line, what is read behind the read that ends
it, and the footer; the length of that is the announced one exactly when nothing is read there and
no `ndg_header` list brings the footer to an empty line. -/
theorem gateway_framed_iff {u : NgxHttpUpstream} {methodGet create : Bool} {discardBody count : ℤ}
    (hu : (ngxHttpNdgUpstreamHandler methodGet discardBody create count).1 = some u)
    (lcf : NgxHttpNdgFilterLocConf) (hs : List NgxTableElt) (st : Store) {start size : ℕ}
    {reads : List (List UInt8)} (hlf : lf ∈ reads.flatten)
    (hfit : (headerReads reads).flatten.length ≤ size) :
    ∃ r, exec UpstreamReader.recv (.init st u start size) reads = some r ∧
      ∀ (st' : Store) (calls : List NgxChain), EndsMarked calls →
        chainBytes st' calls.flatten = r.delivered →
        ∃ r' out, bodyFilterCallsOk lcf (headerPass lcf (.fresh hs) r.u.contentLengthN) calls =
            some (r', out) ∧
          chainBytes st' out.flatten = lineOf reads.flatten ++ (laterReads reads).flatten ++
            (if lcf.headers.isSome ∨ lineOf reads.flatten ≠ [] then lcf.footer.bytes st' else []) ∧
          (((chainBytes st' out.flatten).length : ℤ) =
              (headerPass lcf (.fresh hs) r.u.contentLengthN).contentLengthN ↔
            (laterReads reads).flatten = [] ∧
              (lcf.footer.len = 0 ∨ lcf.headers = none ∨ lineOf reads.flatten ≠ [])) := by
  obtain ⟨r, hexec, hdelivered, hread⟩ :=
    exec_recv st start (upstreamHandler_inputFilter hu) hlf hfit
  exact ⟨r, hexec, fun _ _ hmark hcalls =>
    framed_of_delivered lcf hs hread.announced hdelivered hmark hcalls⟩

/-- The line `hi` in two reads, through a footer of seven bytes. -/
theorem gateway_framed_iff_hi :
    ∃ r, exec UpstreamReader.recv (.init ⟨UInt8.ofNat, fun _ => UInt8.ofNat⟩ ngxHttpUpstreamCreate
        0 64) [[104], [105, 10]] = some r ∧
      ∃ r' out, bodyFilterCallsOk ⟨none, ⟨7, 200⟩⟩
          (headerPass ⟨none, ⟨7, 200⟩⟩ (.fresh []) r.u.contentLengthN)
          [[{ ngxCallocBuf with pos := 104, last := 106, memory := true, lastBuf := true }]] =
            some (r', out) ∧
        ((chainBytes ⟨UInt8.ofNat, fun _ => UInt8.ofNat⟩ out.flatten).length : ℤ) =
          (headerPass ⟨none, ⟨7, 200⟩⟩ (.fresh []) r.u.contentLengthN).contentLengthN := by
  have hu : (ngxHttpNdgUpstreamHandler true ngxOk true 1).1 = some ngxHttpUpstreamCreate := rfl
  obtain ⟨r, hexec, hfilter⟩ := @gateway_framed_iff ngxHttpUpstreamCreate true true ngxOk 1 hu
    ⟨none, ⟨7, 200⟩⟩ [] ⟨UInt8.ofNat, fun _ => UInt8.ofNat⟩ 0 64 [[104], [105, 10]] (by decide)
    (by decide)
  have hdelivered : r.delivered = [104, 105] := by
    obtain rfl := Option.some.inj hexec
    rfl
  obtain ⟨r', out, hrun, -, hiff⟩ := hfilter ⟨UInt8.ofNat, fun _ => UInt8.ofNat⟩
    [[{ ngxCallocBuf with pos := 104, last := 106, memory := true, lastBuf := true }]]
    ⟨[], _, rfl, unmarked_nil, rfl⟩ hdelivered.symm
  exact ⟨r, hexec, r', out, hrun, hiff.mpr ⟨rfl, .inr (.inl rfl)⟩⟩

/-- However the bytes that `r` delivers are put into chains, the client gets `line` and, where it is
due, the footer; the length of that is the announced one exactly when no `ndg_header` list brings
the footer to an empty line. -/
def FramedLine (lcf : NgxHttpNdgFilterLocConf) (hs : List NgxTableElt) (r : UpstreamReader)
    (line : List UInt8) : Prop :=
  ∀ (st : Store) (calls : List NgxChain), EndsMarked calls →
    chainBytes st calls.flatten = r.delivered →
      ∃ r' out, bodyFilterCallsOk lcf (headerPass lcf (.fresh hs) r.u.contentLengthN) calls =
          some (r', out) ∧
        chainBytes st out.flatten = line ++
          (if lcf.headers.isSome ∨ line ≠ [] then lcf.footer.bytes st else []) ∧
        (((chainBytes st out.flatten).length : ℤ) =
            (headerPass lcf (.fresh hs) r.u.contentLengthN).contentLengthN ↔
          lcf.footer.len = 0 ∨ lcf.headers = none ∨ line ≠ [])

/-- A client that has the whole line. -/
theorem LineRead.framedLine {size read : ℕ} {line : List UInt8} {r : UpstreamReader}
    (h : LineRead size line read r) (hread : line.length < read) (lcf : NgxHttpNdgFilterLocConf)
    (hs : List NgxTableElt) : FramedLine lcf hs r line := by
  obtain ⟨hheader, hdelivered⟩ := h.ok hread
  intro st calls hmark hcalls
  obtain ⟨r', out, hrun, hbytes, hframed⟩ := framed_of_delivered lcf hs hheader.announced
    (hdelivered.trans (List.append_nil line).symm) hmark hcalls
  rw [List.append_nil] at hbytes
  exact ⟨r', out, hrun, hbytes, hframed.trans (and_iff_right rfl)⟩

/-- Nothing is on its way between the client and the echo server. -/
def EchoLoop.Idle (s : EchoLoop) : Prop :=
  s.toServer = [] ∧ s.read = (chainBytes s.server.pool.toStore s.server.handed).length

/-- **The echo server behind the gateway.** However the bytes are split on the way to the echo
server and back, once nothing is on its way any more the client of the gateway gets the arguments
of its request, framed. -/
theorem gateway_echo (lcf : NgxHttpNdgFilterLocConf) (hs : List NgxTableElt)
    (prereadBufferSize start size : ℕ) (st : Store) (lfStr args : NgxStr) (pool : NgxPool)
    (hlfStr : lfStr.bytes st = [lf]) (hargs : lf ∉ args.bytes st) (hfit : args.len + 1 ≤ size)
    (es : List EchoLoopEvent) :
    Along (echoLoopStep prereadBufferSize)
      (fun s => s.Idle → FramedLine lcf hs s.client (args.bytes st))
      (.init st lfStr args start size pool) es := by
  have hinv := echoLoop_along prereadBufferSize start size st lfStr args pool hlfStr hargs hfit es
  apply hinv.mono
  rintro s h ⟨hempty, hread⟩
  exact h.client.framedLine (h.echoedLine.complete hempty hread) lcf hs

/-- The line `hi` comes back in two pieces and goes through a footer of seven bytes. -/
theorem gateway_echo_hi : ∃ t,
    exec (echoLoopStep 8) (.init ⟨fun x => if x = 2 then 10 else 104 + x.toUInt8, fun _ _ => 0⟩
        ⟨1, 2⟩ ⟨2, 0⟩ 16 3 ⟨⟨fun _ => 0, fun _ _ => 0⟩, 64⟩)
      [.serverRead 2 ngxOk, .clientRead 1, .serverRead 1 ngxAgain, .clientRead 2] = some t ∧
      FramedLine ⟨none, ⟨7, 200⟩⟩ [] t.client [104, 105] := by
  have hline := gateway_echo ⟨none, ⟨7, 200⟩⟩ [] 8 16 3
    ⟨fun x => if x = 2 then 10 else 104 + x.toUInt8, fun _ _ => 0⟩ ⟨1, 2⟩ ⟨2, 0⟩
    ⟨⟨fun _ => 0, fun _ _ => 0⟩, 64⟩ (by decide) (by decide) (by decide)
    [.serverRead 2 ngxOk, .clientRead 1, .serverRead 1 ngxAgain, .clientRead 2]
  exact ⟨_, rfl, along_iff_exec.mp hline _ List.prefix_rfl _ rfl ⟨rfl, rfl⟩⟩

/-- **The time server behind the gateway.** In every location, and in every interleaving of the
events of a time session with the reads of the upstream module, once the client has read a line to
its end the client of the gateway gets the digits of a time, framed and with the announced
length. -/
theorem gateway_time {κ : Type*} {locations : Scope (LocDirectives κ)} {p : List ℕ}
    {conf : LocConfs κ} (hconf : (mergeLocations locations).label? p = some conf)
    {u : NgxHttpUpstream} {methodGet create : Bool} {discardBody count : ℤ}
    (hu : (ngxHttpNdgUpstreamHandler methodGet discardBody create count).1 = some u)
    (lcf : NgxHttpNdgFilterLocConf) (hs : List NgxTableElt) (m : NgxEventModule)
    (o : TimeHandlerOutcomes) (pool : NgxPool) (read write : NgxEvent) (st : Store) (start : ℕ)
    (es : List (ConnectionEvent TimeEvent))
    (htimes : ∀ time, TimeOf o es time → 0 ≤ time ∧ time < 2 ^ 63) :
    Along (connectionStep (timeStep m) TimeSession.bytes)
      (fun c => c.read ≠ 0 → c.read = c.server.bytes.length →
        ∃ time digits, TimeOf o es time ∧ IsNumeral time.toNat digits ∧ digits ≠ [] ∧
          FramedLine lcf hs c.client digits)
      { client := .init st u start conf.upstream.bufferSize.toNat
        read := 0
        server := ngxStreamNdgTimeHandler m o (.init pool read write) } es := by
  have hinv := timeServer_along (upstreamHandler_inputFilter hu) m o pool read write st start
    (length_timeLine_le_bufferSize hconf) es htimes
  apply hinv.mono
  intro c h hne hall
  obtain ⟨hzero, -⟩ | ⟨time, digits, htime, hnumeral, -, hbytes, hread⟩ := h.timeAnswered
  · exact absurd hzero hne
  · have hlt : digits.length < c.read := by
      rw [hall, hbytes, List.length_append, List.length_singleton]
      exact Nat.lt_succ_self _
    exact ⟨time, digits, htime, hnumeral, hnumeral.ne_nil, hread.framedLine hlt lcf hs⟩

/-- The session of `waitingServer`. -/
theorem gateway_time_waits :
    ∃ c, exec (connectionStep (timeStep ngxEpollModule) TimeSession.bytes)
      { client := .init ⟨fun _ => 0, fun _ _ => 0⟩ ngxHttpUpstreamCreate 0 4096
        read := 0
        server := ngxStreamNdgTimeHandler ngxEpollModule ⟨true, true, ⟨true, true, true, .ok, 7⟩⟩
          (.init ⟨⟨fun _ => 0, fun _ _ => 0⟩, 64⟩ ⟨.session, false, none, false, false⟩
            ⟨.session, false, none, false, false⟩) } waitingServer = some c ∧
      ∃ digits, digits ≠ [] ∧ FramedLine ⟨none, ⟨7, 200⟩⟩ [] c.client digits := by
  have hconf : (mergeLocations (.node (LocDirectives.empty : LocDirectives ℕ) [])).label? [] =
      some (.merge .create (.parse .empty)) := rfl
  have hu : (ngxHttpNdgUpstreamHandler true ngxOk true 1).1 = some ngxHttpUpstreamCreate := rfl
  have hrun := gateway_time hconf hu ⟨none, ⟨7, 200⟩⟩ [] ngxEpollModule
    ⟨true, true, ⟨true, true, true, .ok, 7⟩⟩ ⟨⟨fun _ => 0, fun _ _ => 0⟩, 64⟩
    ⟨.session, false, none, false, false⟩ ⟨.session, false, none, false, false⟩
    ⟨fun _ => 0, fun _ _ => 0⟩ 0 waitingServer timeOf_waitingServer
  obtain ⟨c, hc, hread, hbytes⟩ := exec_waitingServer
  have hne : c.read ≠ 0 := by
    rw [hread]
    decide
  have hall : c.read = c.server.bytes.length := by
    rw [hread, hbytes]
    rfl
  obtain ⟨_, digits, -, -, hdigits, hframed⟩ :=
    along_iff_exec.mp hrun waitingServer List.prefix_rfl c hc hne hall
  exact ⟨c, hc, digits, hdigits, hframed⟩

end NgxNdg
