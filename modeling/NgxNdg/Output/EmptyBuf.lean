import NgxNdg.Echo.EndMark
import NgxNdg.StreamEcho.Lossless
import NgxNdg.Upstream.Model

/-!
# Empty buffers

The writers of nginx take a buffer of size zero that is held in memory for a mistake, whatever
its end marks say. Each producer computes the size of what it emits from its own input, and an
empty input gives an empty buffer; the body filter alone adds none.

## Main definitions

- `NoEmptyBuf`: no buffer of a chain is empty and in memory
- `HandsOutBytes`: a step of a stream session that hands out a copy finds bytes to copy
-/

namespace NgxNdg

open FirstMark Transition

/-- A buffer with nothing in it, in memory. -/
def NgxBuf.EmptyInMemory (b : NgxBuf) : Prop :=
  (b.temporary = true ∨ b.memory = true) ∧ ngxBufSize b = 0

def NoEmptyBuf (c : NgxChain) : Prop := ∀ b ∈ c, ¬ b.EmptyInMemory

/-- A call that gets its buffer and its chain link finds bytes in the preread buffer. -/
def HandsOutBytes (s : EchoSession) : EchoEvent → Prop
  | .append _ => True
  | .call o => o.buf = true → o.link = true → ∀ b, s.buffer = some b → b.pos < b.last

theorem noEmptyBuf_nil : NoEmptyBuf [] := fun _ h => nomatch h

theorem noEmptyBuf_append {c d : NgxChain} :
    NoEmptyBuf (c ++ d) ↔ NoEmptyBuf c ∧ NoEmptyBuf d := List.forall_mem_append

theorem noEmptyBuf_cons {b : NgxBuf} {c : NgxChain} :
    NoEmptyBuf (b :: c) ↔ ¬ b.EmptyInMemory ∧ NoEmptyBuf c := List.forall_mem_cons

/-- The buffer of the echo handler has the size of the message and the arguments. -/
theorem echo_output_size (msg : NgxStr) (r : EchoRequest) (o : EchoOutcomes) (pool : NgxPool)
    (h : HeadersOut) (hemits : (Content.echo msg r o pool h).emits = true) :
    ∃ b, (Content.echo msg r o pool h).output = [b] ∧ b.temporary = true ∧
      (ngxBufSize b = 0 ↔ msg.len = 0 ∧ r.args.len = 0) := by
  obtain ⟨get, args, headerOnly⟩ := r
  obtain ⟨discardBody, sendHeader, buf, link, output⟩ := o
  simp only [Content.emits, Bool.and_eq_true, beq_iff_eq] at hemits
  obtain ⟨⟨⟨⟨rfl, rfl⟩, hbody⟩, rfl⟩, rfl⟩ := hemits
  by_cases hlen : args.len = 0
  · simp only [Content.output, ngxHttpNdgEchoHandler, hbody, hlen]
    refine ⟨_, rfl, rfl, ?_⟩
    simp [ngxBufSize, ngxBufInMemory, ngxCreateTempBuf, ngxCpymem]
  · simp only [Content.output, ngxHttpNdgEchoHandler, hbody]
    refine ⟨_, rfl, rfl, ?_⟩
    simp [ngxBufSize, ngxBufInMemory, ngxCreateTempBuf, ngxCpymem, hlen]
    omega

theorem echo_noEmptyBuf_iff (msg : NgxStr) (r : EchoRequest) (o : EchoOutcomes) (pool : NgxPool)
    (h : HeadersOut) :
    NoEmptyBuf (Content.echo msg r o pool h).output ↔
      ((Content.echo msg r o pool h).emits = true → msg.len ≠ 0 ∨ r.args.len ≠ 0) := by
  obtain ⟨hemits, _⟩ | ⟨hemits, hnil⟩ := (Content.echo msg r o pool h).output_cases
  · obtain ⟨b, hb, htemp, hsize⟩ := echo_output_size msg r o pool h hemits
    rw [hb, noEmptyBuf_cons, NgxBuf.EmptyInMemory, hsize]
    simp only [htemp, true_or, true_and, hemits, forall_const, and_iff_left noEmptyBuf_nil]
    omega
  · rw [hnil]
    exact iff_of_true noEmptyBuf_nil fun h => absurd h hemits

/-- The chain that the preread handler hands out. -/
theorem prereadHandler_chain (o : EchoPrereadOutcomes) (pool : NgxPool) (cb : NgxBuf) :
    (ngxStreamNdgEchoPrereadHandler true o pool (some cb)).2.2.1 =
      if o.buf = true ∧ o.link = true then
        [{ (ngxCreateTempBuf pool (ngxBufSize cb).toNat).2 with
          last := pool.brk + (ngxBufSize cb).toNat }]
      else [] := by
  unfold ngxStreamNdgEchoPrereadHandler
  cases o.buf
  · rfl
  cases o.link
  · rfl
  by_cases hfilter : o.topFilter = ngxError <;> simp [hfilter, ngxCpymem, ngxCreateTempBuf]

/-- A step hands out no empty buffer exactly when it finds bytes to hand out. -/
theorem echoStep_noEmptyBuf_iff {size : ℕ} {s t : EchoSession} {e : EchoEvent}
    (h : SessionLayout size s) (hs : NoEmptyBuf s.handed) (hstep : echoStep size s e = some t) :
    NoEmptyBuf t.handed ↔ HandsOutBytes s e := by
  cases e with
  | append chunk =>
    obtain ⟨_, _, hhanded, _⟩ := h.append hstep
    rw [hhanded]
    exact iff_of_true hs trivial
  | call o =>
    obtain rfl := Option.some.inj hstep
    cases hb : s.buffer with
    | none =>
      have hcall : (s.call true o).handed = s.handed := by
        simp [EchoSession.call, ngxStreamNdgEchoPrereadHandler, hb]
      rw [hcall]
      refine iff_of_true hs fun _ _ b hsome => ?_
      rw [hb] at hsome
      cases hsome
    | some cb =>
      have hcb := h.buffer cb hb
      have hle := hcb.pos_le_last
      have hcall : (s.call true o).handed =
          s.handed ++ (ngxStreamNdgEchoPrereadHandler true o s.pool (some cb)).2.2.1 := by
        simp only [EchoSession.call, hb]
      have hbytes : HandsOutBytes s (.call o) ↔
          (o.buf = true ∧ o.link = true → cb.pos < cb.last) := by
        simp only [HandsOutBytes, hb, Option.some.injEq, forall_eq', and_imp]
      rw [hcall, noEmptyBuf_append, prereadHandler_chain, hbytes]
      simp only [hs, true_and]
      split
      · next halloc =>
        have hsize : (ngxBufSize cb).toNat = cb.last - cb.pos := by
          simp only [ngxBufSize, ngxBufInMemory, hcb.temporary, Bool.true_or, if_true]
          omega
        rw [noEmptyBuf_cons, and_iff_left noEmptyBuf_nil, hsize]
        simp [NgxBuf.EmptyInMemory, ngxBufSize, ngxBufInMemory, ngxCreateTempBuf, halloc]
        omega
      · next halloc => exact iff_of_true noEmptyBuf_nil fun h => absurd h halloc

/-- The line feed is a byte; so the request has an empty buffer when it has no arguments. -/
theorem createRequest_noEmptyBuf_iff (allocs : CreateRequestAllocs) (lfData : ℕ) (args : NgxStr)
    {u : NgxHttpUpstream} (hu : NoEmptyBuf u.requestBufs) :
    NoEmptyBuf (ngxHttpNdgUpstreamCreateRequest allocs ⟨1, lfData⟩ args u).1.requestBufs ↔
      (allocs.buf1 = true → allocs.buf2 = true → allocs.link1 = true → allocs.link2 = true →
        args.len ≠ 0) := by
  obtain ⟨buf1, buf2, link1, link2⟩ := allocs
  unfold ngxHttpNdgUpstreamCreateRequest
  cases buf1
  · exact iff_of_true hu fun h => nomatch h
  cases buf2
  · exact iff_of_true hu fun _ h => nomatch h
  cases link1
  · exact iff_of_true hu fun _ _ h => nomatch h
  cases link2
  · exact iff_of_true hu fun _ _ _ h => nomatch h
  · simp [noEmptyBuf_cons, noEmptyBuf_nil, NgxBuf.EmptyInMemory, ngxBufSize, ngxBufInMemory,
      ngxCallocBuf]

theorem appendFooter_noEmptyBuf {footer : NgxStr} {pre post : NgxChain} {p : NgxBuf}
    (hfooter : footer.len ≠ 0) (h : NoEmptyBuf (pre ++ p :: post)) :
    NoEmptyBuf (appendFooter footer pre p post) := by
  have hnew : ¬ (footerBuf footer).EmptyInMemory := by
    simp [NgxBuf.EmptyInMemory, footerBuf, ngxBufSize, ngxBufInMemory, hfooter]
  obtain ⟨hpre, hrest⟩ := noEmptyBuf_append.mp h
  obtain ⟨_, hpost⟩ := noEmptyBuf_cons.mp hrest
  unfold appendFooter
  split
  · exact noEmptyBuf_append.mpr ⟨hpre, noEmptyBuf_cons.mpr ⟨hnew, hpost⟩⟩
  next hsize =>
  apply noEmptyBuf_append.mpr
  refine ⟨hpre, noEmptyBuf_cons.mpr ⟨fun hempty => hsize hempty.2, ?_⟩⟩
  exact noEmptyBuf_cons.mpr ⟨hnew, noEmptyBuf_nil⟩

/-- The body filter replaces and appends buffers that are not empty. -/
theorem bodyFilter_noEmptyBuf {lcf : NgxHttpNdgFilterLocConf} {al : BodyFilterAllocs}
    {r r' : FilterRequest} {c out : NgxChain} {ret : FilterReturn}
    (hcall : ngxHttpNdgBodyFilter lcf al r c = some (r', out, ret)) (hc : NoEmptyBuf c) :
    NoEmptyBuf out := by
  obtain rfl | ⟨hf, pre, p, post, rfl, rfl⟩ := bodyFilter_out hcall
  · exact hc
  · exact appendFooter_noEmptyBuf hf hc

/-- **No empty buffer.** The echo handler emits none exactly when there is a message or there are
arguments, a stream echo session exactly when every call finds bytes in the preread buffer, and
the upstream request has none exactly when there are arguments. The body filter adds none. -/
theorem no_empty_buf_iff (msg : NgxStr) (r : EchoRequest) (o : EchoOutcomes) (pool : NgxPool)
    (h : HeadersOut) (size : ℕ) (es : List EchoEvent) (allocs : CreateRequestAllocs) (lfData : ℕ)
    (args : NgxStr) (lcf : NgxHttpNdgFilterLocConf) (al : BodyFilterAllocs) (fr : FilterRequest)
    (c : NgxChain) :
    (NoEmptyBuf (Content.echo msg r o pool h).output ↔
      ((Content.echo msg r o pool h).emits = true → msg.len ≠ 0 ∨ r.args.len ≠ 0)) ∧
    (Along (echoStep size) (fun s => NoEmptyBuf s.handed) (.init pool) es ↔
      Meets (echoStep size) HandsOutBytes (.init pool) es) ∧
    (NoEmptyBuf (ngxHttpNdgUpstreamCreateRequest allocs ⟨1, lfData⟩ args
        ngxHttpUpstreamCreate).1.requestBufs ↔
      (allocs.buf1 = true → allocs.buf2 = true → allocs.link1 = true → allocs.link2 = true →
        args.len ≠ 0)) ∧
    ∀ fr' out ret, ngxHttpNdgBodyFilter lcf al fr c = some (fr', out, ret) →
      NoEmptyBuf c → NoEmptyBuf out := by
  refine ⟨echo_noEmptyBuf_iff msg r o pool h, ?_, ?_, ?_⟩
  · apply along_iff_meets_of_exact (I := SessionLayout size)
    · intro s e t hs hstep
      exact (hs.step hstep).1
    · intro s e t hs hempty hstep
      exact echoStep_noEmptyBuf_iff hs hempty hstep
    · exact .init size pool
    · exact noEmptyBuf_nil
  · exact createRequest_noEmptyBuf_iff allocs lfData args noEmptyBuf_nil
  · intro fr' out ret hcall hc
    exact bodyFilter_noEmptyBuf hcall hc

/-- An empty message without arguments, a call between two reads, and a request without
arguments. -/
theorem empty_bufs :
    ¬ NoEmptyBuf (Content.echo ⟨0, 64⟩ ⟨true, ⟨0, 0⟩, false⟩ ⟨ngxOk, ngxOk, true, true, ngxOk⟩
      ⟨⟨fun _ => 0, fun _ _ => 0⟩, 4096⟩ ⟨0, 0⟩).output ∧
    ¬ Along (echoStep 8) (fun s => NoEmptyBuf s.handed)
      (.init ⟨⟨fun _ => 0, fun _ _ => 0⟩, 64⟩)
      [.append [104], .call ⟨true, true, ngxOk⟩, .call ⟨true, true, ngxOk⟩] ∧
    ¬ NoEmptyBuf (ngxHttpNdgUpstreamCreateRequest ⟨true, true, true, true⟩ ⟨1, 64⟩ ⟨0, 0⟩
      ngxHttpUpstreamCreate).1.requestBufs := by
  refine ⟨fun h => ?_, fun h => ?_, fun h => ?_⟩
  · exact h _ List.mem_cons_self ⟨.inl rfl, rfl⟩
  · have hlast := ((h.2 _ rfl).2 _ rfl).2 _ rfl
    exact hlast _ (List.mem_cons_of_mem _ List.mem_cons_self) ⟨.inl rfl, rfl⟩
  · exact h _ List.mem_cons_self ⟨.inr rfl, rfl⟩

end NgxNdg
