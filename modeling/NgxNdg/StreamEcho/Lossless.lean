import NgxNdg.Lib.Run
import NgxNdg.StreamEcho.Session

/-!
# Sessions of any length

A run of a session appends received bytes to the preread buffer and calls the preread handler,
in any order. What the handler makes of the preread buffer depends on how a call ends, where
the memory lies does not; so the layout holds in every run, and the echo in the runs without
failures.

## Main definitions

- `echoStep`: one read into the preread buffer, or one call of the handler
-/

namespace NgxNdg

open Transition

inductive EchoEvent where
  /-- nginx appends the received `chunk` to the preread buffer -/
  | append (chunk : List UInt8)
  /-- nginx calls the preread handler -/
  | call (o : EchoPrereadOutcomes)

/-- One step of a session in a server with `ndg_echo` on. A read brings no more than the
preread buffer has room for. -/
def echoStep (prereadBufferSize : ℕ) (s : EchoSession) : EchoEvent → Option EchoSession
  | .append chunk => s.append prereadBufferSize chunk
  | .call o => some (s.call true o)

/-- The allocations of the call succeed and the stream filters accept the data. -/
def EchoPrereadOutcomes.Succeeds (o : EchoPrereadOutcomes) : Prop :=
  o.buf = true ∧ o.link = true ∧ o.topFilter ≠ ngxError

/-- A read, or a call that succeeds. -/
def EchoEvent.Succeeds : EchoEvent → Prop
  | .append _ => True
  | .call o => o.Succeeds

/-- The bytes received by an event. -/
def EchoEvent.bytes : EchoEvent → List UInt8
  | .append chunk => chunk
  | .call _ => []

variable {size : ℕ} {s t : EchoSession}

theorem SessionLayout.init (size : ℕ) (pool : NgxPool) : SessionLayout size (.init pool) :=
  (SessionInv.init size pool).layout

/-- A step keeps the layout, and the bytes of every link handed out. -/
theorem SessionLayout.step (h : SessionLayout size s) {e : EchoEvent}
    (hstep : echoStep size s e = some t) :
    SessionLayout size t ∧ s.handed <+: t.handed ∧
      ∀ link ∈ s.handed, link.bytes t.pool.toStore = link.bytes s.pool.toStore := by
  cases e with
  | append chunk =>
    obtain ⟨ht, _, hhanded, hbytes, _⟩ := h.append hstep
    exact ⟨ht, hhanded ▸ List.prefix_rfl, hbytes⟩
  | call o =>
    obtain rfl := Option.some.inj hstep
    exact h.call o

/-- What is handed out stays as it is, however the session goes on. -/
theorem SessionLayout.exec {es : List EchoEvent} (h : SessionLayout size s)
    (hexec : exec (echoStep size) s es = some t) :
    SessionLayout size t ∧ s.handed <+: t.handed ∧
      ∀ link ∈ s.handed, link.bytes t.pool.toStore = link.bytes s.pool.toStore := by
  induction es generalizing s with
  | nil =>
    obtain rfl := Option.some.inj hexec
    exact ⟨h, List.prefix_rfl, fun _ _ => rfl⟩
  | cons e es ih =>
    obtain ⟨u, hstep, hrest⟩ := Option.bind_eq_some_iff.mp hexec
    obtain ⟨hu, hsu, hbytes⟩ := h.step hstep
    obtain ⟨ht, hut, hbytes'⟩ := ih hu hrest
    refine ⟨ht, hsu.trans hut, fun link hlink => ?_⟩
    exact (hbytes' link (hsu.subset hlink)).trans (hbytes link hlink)

/-- A step that succeeds keeps the echo; a call empties the preread buffer. -/
theorem SessionInv.step (h : SessionInv size s) {e : EchoEvent} (he : e.Succeeds)
    (hstep : echoStep size s e = some t) :
    SessionInv size t ∧ t.received = s.received ++ e.bytes := by
  cases e with
  | append chunk => exact h.append hstep
  | call o =>
    obtain rfl := Option.some.inj hstep
    obtain ⟨ht, _, hreceived⟩ := h.call he.1 he.2.1 he.2.2
    exact ⟨ht, hreceived.trans (List.append_nil _).symm⟩

theorem SessionInv.exec {es : List EchoEvent} (h : SessionInv size s)
    (hes : ∀ e ∈ es, e.Succeeds) (hexec : exec (echoStep size) s es = some t) :
    SessionInv size t ∧ t.received = s.received ++ es.flatMap EchoEvent.bytes := by
  induction es generalizing s with
  | nil =>
    obtain rfl := Option.some.inj hexec
    exact ⟨h, (List.append_nil _).symm⟩
  | cons e es ih =>
    obtain ⟨u, hstep, hrest⟩ := Option.bind_eq_some_iff.mp hexec
    obtain ⟨hu, hreceived⟩ := h.step (hes e List.mem_cons_self) hstep
    obtain ⟨ht, hreceived'⟩ := ih hu (fun e' he' => hes e' (List.mem_cons_of_mem e he')) hrest
    refine ⟨ht, ?_⟩
    rw [hreceived', hreceived, List.append_assoc, List.flatMap_cons]

/-- An empty preread buffer, or none yet, has its full room. -/
theorem EchoSession.Drained.room (hdrained : s.Drained) (h : SessionInv size s) :
    (∀ b, s.buffer = some b → b.last + size = b.bufEnd) ∧
      ∀ chunk : List UInt8, chunk.length ≤ size → ∃ t, s.append size chunk = some t := by
  have hroom : ∀ b, s.buffer = some b → b.last + size = b.bufEnd := by
    intro b hb
    rw [hdrained b hb, (h.buffer b hb).room]
  refine ⟨hroom, fun chunk hchunk => ?_⟩
  cases hb : s.buffer with
  | none =>
    have hfit : ¬ s.pool.brk + size < s.pool.brk + chunk.length := by omega
    simp [EchoSession.append, EchoSession.prereadBuffer, hb, ngxCreateTempBuf, hfit]
  | some b =>
    have hfit : ¬ b.bufEnd < b.last + chunk.length := by
      have := hroom b hb
      omega
    simp [EchoSession.append, EchoSession.prereadBuffer, hb, hfit]

/-- A call that returns `NGX_ERROR` leaves the preread buffer and its bytes as they were. -/
theorem SessionLayout.call_error (h : SessionLayout size s) {o : EchoPrereadOutcomes}
    (herror : (s.call true o).rc = ngxError) :
    (s.call true o).buffer = s.buffer ∧ (s.call true o).pending = s.pending := by
  cases hb : s.buffer with
  | none =>
    have hcall : s.call true o = { s with rc := ngxAgain } := by
      simp [EchoSession.call, ngxStreamNdgEchoPrereadHandler, hb]
    rw [hcall]
    exact ⟨hb, rfl⟩
  | some cb =>
    obtain ⟨pool, cb', out, rc, hhandler, _, hmem, _, hcb'⟩ := prereadHandler_cases o s.pool cb
    have hcall : s.call true o = { s with
        pool := pool
        buffer := some cb'
        handed := s.handed ++ out
        rc := rc } := by
      simp only [EchoSession.call, hb, hhandler]
    rw [hcall] at herror ⊢
    obtain ⟨_, rfl⟩ | ⟨rfl, _⟩ := hcb'
    · have hcb := h.buffer cb' hb
      refine ⟨rfl, ?_⟩
      rw [EchoSession.pending, EchoSession.pending, hb]
      refine NgxBuf.bytes_congr hcb.temporary fun x _ hx => hmem x ?_
      exact hx.trans_le (hcb.last_le_end.trans hcb.allocated)
    · exact absurd herror (show ngxAgain ≠ ngxError by decide)

/-- **Lossless echo.** In every session whose calls succeed, each call leaves all received bytes
handed out, once and in their order, and the preread buffer with its full room; no later step of
the session changes what was handed out. A call that returns `NGX_ERROR`, in any session, leaves
the preread buffer as it was. -/
theorem stream_echo_lossless (size : ℕ) (pool : NgxPool) :
    (∀ es o s, (∀ e ∈ es, EchoEvent.Succeeds e) → o.Succeeds →
      exec (echoStep size) (.init pool) (es ++ [.call o]) = some s →
        chainBytes s.pool.toStore s.handed = es.flatMap EchoEvent.bytes ∧
        (∀ b, s.buffer = some b → b.last + size = b.bufEnd) ∧
        (∀ chunk : List UInt8, chunk.length ≤ size → ∃ t, s.append size chunk = some t) ∧
        ∀ fs t, exec (echoStep size) s fs = some t → s.handed <+: t.handed ∧
          chainBytes t.pool.toStore s.handed = chainBytes s.pool.toStore s.handed) ∧
    ∀ es s o, exec (echoStep size) (.init pool) es = some s → (s.call true o).rc = ngxError →
      (s.call true o).buffer = s.buffer ∧ (s.call true o).pending = s.pending := by
  constructor
  · intro es o s hes ho hexec
    rw [exec_append] at hexec
    obtain ⟨u, hu, hcall⟩ := Option.bind_eq_some_iff.mp hexec
    obtain ⟨hinv, hreceived⟩ := (SessionInv.init size pool).exec hes hu
    obtain rfl := Option.some.inj hcall
    obtain ⟨hcalled, hdrained, hsame⟩ := hinv.call ho.1 ho.2.1 ho.2.2
    obtain ⟨hroom, hfits⟩ := hdrained.room hcalled
    refine ⟨?_, hroom, hfits, fun fs t hfs => ?_⟩
    · rw [hcalled.handed_bytes hdrained, hsame, hreceived]
      rfl
    · obtain ⟨_, hhanded, hbytes⟩ := hcalled.layout.exec hfs
      exact ⟨hhanded, chainBytes_congr hbytes⟩
  · intro es s o hexec herror
    exact ((SessionLayout.init size pool).exec hexec).1.call_error herror

/-- A call before the preread buffer exists, two reads with a call behind each, and one call
without new bytes: the bytes read are handed out. -/
theorem stream_echo_lossless_hi : ∃ s, exec (echoStep 8)
      (.init ⟨⟨fun _ => 0, fun _ _ => 0⟩, 64⟩)
      ([.call ⟨true, true, ngxOk⟩, .append [104], .call ⟨true, true, ngxAgain⟩, .append [105, 10],
        .call ⟨true, true, ngxOk⟩] ++ [.call ⟨true, true, ngxOk⟩]) = some s ∧
    chainBytes s.pool.toStore s.handed = [104, 105, 10] := by
  refine ⟨_, rfl, ?_⟩
  refine ((stream_echo_lossless 8 ⟨⟨fun _ => 0, fun _ _ => 0⟩, 64⟩).1
    [.call ⟨true, true, ngxOk⟩, .append [104], .call ⟨true, true, ngxAgain⟩, .append [105, 10],
      .call ⟨true, true, ngxOk⟩] ⟨true, true, ngxOk⟩ _ ?_ ?_ rfl).1
  · simp [EchoEvent.Succeeds, EchoPrereadOutcomes.Succeeds, ngxOk, ngxAgain, ngxError]
  · exact ⟨rfl, rfl, by decide⟩

end NgxNdg
