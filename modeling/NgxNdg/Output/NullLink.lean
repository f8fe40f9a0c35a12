import NgxNdg.Echo.Handler
import NgxNdg.Filter.Body
import NgxNdg.Thread.Balance
import NgxNdg.Upstream.Model

/-!
# Allocations that fail

The output paths check the buffers they allocate and the context of the body filter, and end
with an error when one is `NULL`. Of the chain links only those of `create_request` are checked:
the other three are dereferenced as they come.

## Main definitions

- `EchoReachesLink`, `BodyFilterReachesLink`, `ThreadEvent.LinkAllocated`: where a chain link is
  allocated, and that it is
-/

namespace NgxNdg

open FirstMark Transition

/-- The echo handler has a body to send. -/
def EchoSendsBody (r : EchoRequest) (o : EchoOutcomes) : Prop :=
  r.methodGet = true ∧ o.discardBody = ngxOk ∧ bodyFollows o.sendHeader r.headerOnly = true

/-- The echo handler has a body to send, and the buffer for it. -/
def EchoReachesLink (r : EchoRequest) (o : EchoOutcomes) : Prop :=
  EchoSendsBody r o ∧ o.buf = true

/-- The event handler of a task that has a body to send gets its chain link. -/
def ThreadEvent.LinkAllocated : ThreadEvent → Prop
  | .call _ _ => True
  | .runTask _ => True
  | .complete _ o => o.sendsBody = true → o.link = true
  | .discarded _ => True

/-- The end mark is on a buffer that is not empty, and the body filter has the buffer of the
footer to link behind it. -/
def BodyFilterReachesLink (lcf : NgxHttpNdgFilterLocConf) (al : BodyFilterAllocs)
    (r : FilterRequest) (c : NgxChain) : Prop :=
  al.buf = true ∧ ∃ p, BodyFilterReachesMark lcf r c p ∧ ngxBufSize p ≠ 0

theorem echoHandler_null_iff (msg : NgxStr) (r : EchoRequest) (o : EchoOutcomes) (pool : NgxPool)
    (h : HeadersOut) :
    (ngxHttpNdgEchoHandler msg r o pool h).2.2 = none ↔ EchoReachesLink r o ∧ o.link = false := by
  obtain ⟨get, args, headerOnly⟩ := r
  obtain ⟨discardBody, sendHeader, buf, link, output⟩ := o
  simp only [ngxHttpNdgEchoHandler, EchoReachesLink, EchoSendsBody]
  cases get
  · simp
  by_cases hdiscard : discardBody = ngxOk
  · cases hbody : bodyFollows sendHeader headerOnly <;> cases buf <;> cases link <;>
      simp [hdiscard]
  · simp [hdiscard]

theorem echoHandler_buf_fails (msg : NgxStr) {r : EchoRequest} {o : EchoOutcomes} (pool : NgxPool)
    (h : HeadersOut) (hsends : EchoSendsBody r o) (hbuf : o.buf = false) :
    (ngxHttpNdgEchoHandler msg r o pool h).2.2 = some ([], ngxHttpInternalServerError) := by
  obtain ⟨hget, hdiscard, hbody⟩ := hsends
  simp [ngxHttpNdgEchoHandler, hget, hdiscard, hbody, hbuf]

theorem threadHandler_alloc_fails {o : ThreadHandlerOutcomes} (id r : ℕ) (isMain : Bool)
    (pool : NgxPool) (main : MainRefs) (hfails : o.task = false ∨ o.buf = false) :
    ngxHttpNdgThreadHandler o id r isMain pool main =
      (pool, ngxHttpDiscardRequestBody isMain o.pending main, none, ngxError) := by
  obtain ⟨pending, opool, task, buf, post⟩ := o
  unfold ngxHttpNdgThreadHandler
  cases opool
  · rfl
  cases task
  · rfl
  obtain hfails | rfl := hfails
  · cases hfails
  · rfl

/-- A step of a worker leads to the dereference of `NULL` exactly when it has a body to send and
no chain link. -/
theorem threadStep_alive_iff {main : ℕ → ℕ} {s t : ThreadState} {e : ThreadEvent}
    (h : ThreadReady s) (halive : s.alive = true) (hstep : threadStep main s e = some t) :
    t.alive = true ↔ e.LinkAllocated := by
  cases e with
  | call r o =>
    apply iff_of_true _ trivial
    obtain ⟨_, rfl⟩ | ⟨_, _, pool, rfl⟩ | ⟨_, _, pool, task, _, _, _, rfl⟩ := call_cases hstep
    · exact halive
    · exact halive
    · exact halive
  | runTask id =>
    apply iff_of_true _ trivial
    obtain ⟨pool, rfl⟩ := runTask_cases hstep
    exact halive
  | complete id o =>
    obtain ⟨task, _, h', alive, count, finalized, rfl, ⟨hlink, _, _, rfl⟩ | ⟨hlink, _, _, rfl⟩⟩ :=
      complete_cases h hstep
    · exact iff_of_true halive hlink
    · exact iff_of_false Bool.false_ne_true hlink
  | discarded m =>
    apply iff_of_true _ trivial
    obtain ⟨_, rfl⟩ := discarded_cases hstep
    exact halive

theorem bodyFilter_null_iff (lcf : NgxHttpNdgFilterLocConf) (al : BodyFilterAllocs)
    (r : FilterRequest) (c : NgxChain) :
    ngxHttpNdgBodyFilter lcf al r c = none ↔
      BodyFilterReachesLink lcf al r c ∧ al.link = false := by
  constructor
  · intro hnull
    obtain ⟨r', h⟩ | ⟨_, h⟩ | ⟨hf, hr, pre, p, post, rfl, hpre, hp⟩ := bodyFilter_cases lcf al r c
    · exact absurd (h.symm.trans hnull) (Option.some_ne_none _)
    · exact absurd (h.symm.trans hnull) (Option.some_ne_none _)
    · rw [bodyFilter_at_mark al hf hr hpre hp] at hnull
      split at hnull
      · cases hnull
      next hbuf =>
      split at hnull
      · next hlink =>
        refine ⟨⟨?_, p, ⟨hf, hr, pre, post, rfl, hpre, hp⟩, hlink.1⟩, hlink.2⟩
        exact Bool.eq_true_of_not_eq_false hbuf
      · cases hnull
  · rintro ⟨⟨hbuf, p, ⟨hf, hr, pre, post, rfl, hpre, hp⟩, hsize⟩, hlink⟩
    rw [bodyFilter_at_mark al hf hr hpre hp, hbuf, if_neg (by decide),
      if_pos ⟨hsize, hlink⟩]

theorem bodyFilter_buf_fails {lcf : NgxHttpNdgFilterLocConf} {al : BodyFilterAllocs}
    {r : FilterRequest} {c : NgxChain} {p : NgxBuf} (hmark : BodyFilterReachesMark lcf r c p)
    (hal : al.buf = false) :
    ∃ r', ngxHttpNdgBodyFilter lcf al r c = some (r', c, .code ngxHttpInternalServerError) := by
  obtain ⟨hf, hr, pre, post, rfl, hpre, hp⟩ := hmark
  rw [bodyFilter_at_mark al hf hr hpre hp, if_pos hal]
  exact ⟨_, rfl⟩

theorem createRequest_alloc_fails {allocs : CreateRequestAllocs} (lfStr args : NgxStr)
    (u : NgxHttpUpstream) (hfails : ¬ (allocs.buf1 = true ∧ allocs.buf2 = true ∧
      allocs.link1 = true ∧ allocs.link2 = true)) :
    ngxHttpNdgUpstreamCreateRequest allocs lfStr args u = (u, ngxError) := by
  obtain ⟨buf1, buf2, link1, link2⟩ := allocs
  unfold ngxHttpNdgUpstreamCreateRequest
  cases buf1
  · rfl
  cases buf2
  · rfl
  cases link1
  · rfl
  cases link2
  · rfl
  · exact absurd ⟨rfl, rfl, rfl, rfl⟩ hfails

/-- **Failed allocations.** The echo handler, the workers of the thread module and the body filter
dereference no `NULL` exactly when the chain link for their output is allocated. The failure of
every other allocation of the output paths ends in an error. -/
theorem alloc_failure_iff (msg : NgxStr) (er : EchoRequest) (eo : EchoOutcomes) (pool : NgxPool)
    (h : HeadersOut) (o : ThreadHandlerOutcomes) (id r : ℕ) (isMain : Bool) (refs : MainRefs)
    (tctx : NgxHttpNdgThreadTaskCtx) (main : ℕ → ℕ) (count₀ : ℕ → BitVec 16)
    (headersOut : ℕ → HeadersOut) (es : List ThreadEvent) (lcf : NgxHttpNdgFilterLocConf)
    (al : BodyFilterAllocs) (fr : FilterRequest) (c : NgxChain) (allocs : CreateRequestAllocs)
    (lfStr args : NgxStr) (u : NgxHttpUpstream) :
    ((ngxHttpNdgEchoHandler msg er eo pool h).2.2 ≠ none ↔
      (EchoReachesLink er eo → eo.link = true)) ∧
    (EchoSendsBody er eo → eo.buf = false →
      (ngxHttpNdgEchoHandler msg er eo pool h).2.2 = some ([], ngxHttpInternalServerError)) ∧
    (o.task = false ∨ o.buf = false →
      ngxHttpNdgThreadHandler o id r isMain pool refs =
        (pool, ngxHttpDiscardRequestBody isMain o.pending refs, none, ngxError)) ∧
    (tctx.buf = none → (ngxHttpNdgThreadTaskHandler pool tctx).2.rc = ngxError) ∧
    (Along (threadStep main) (fun s => s.alive = true) (.init count₀ pool headersOut) es ↔
      Meets (threadStep main) (fun _ e => e.LinkAllocated) (.init count₀ pool headersOut) es) ∧
    (ngxHttpNdgBodyFilter lcf al fr c ≠ none ↔
      (BodyFilterReachesLink lcf al fr c → al.link = true)) ∧
    (c ≠ [] → lcf.footer.len ≠ 0 → fr.ctx = none → al.ctx = false →
      ngxHttpNdgBodyFilter lcf al fr c = some (fr, c, .code ngxError)) ∧
    (∀ p, BodyFilterReachesMark lcf fr c p → al.buf = false → ∃ fr',
      ngxHttpNdgBodyFilter lcf al fr c = some (fr', c, .code ngxHttpInternalServerError)) ∧
    (¬ (allocs.buf1 = true ∧ allocs.buf2 = true ∧ allocs.link1 = true ∧ allocs.link2 = true) →
      ngxHttpNdgUpstreamCreateRequest allocs lfStr args u = (u, ngxError)) := by
  refine ⟨?_, echoHandler_buf_fails msg pool h, threadHandler_alloc_fails id r isMain pool refs,
    ?_, ?_, ?_, bodyFilter_ctx_fails, ?_, createRequest_alloc_fails lfStr args u⟩
  · rw [ne_eq, echoHandler_null_iff, not_and, Bool.not_eq_false]
  · intro hbuf
    simp [ngxHttpNdgThreadTaskHandler, hbuf]
  · apply along_iff_meets_of_exact (I := ThreadReady)
    · intro s e t hs hstep
      exact hs.step hstep
    · intro s e t hs halive hstep
      exact threadStep_alive_iff hs halive hstep
    · exact fun _ hmem => nomatch hmem
    · rfl
  · rw [ne_eq, bodyFilter_null_iff, not_and, Bool.not_eq_false]
  · intro p hmark hal
    exact bodyFilter_buf_fails hmark hal

/-- The three chain links, each `NULL` where everything else succeeds. -/
theorem null_links :
    (ngxHttpNdgEchoHandler ⟨2, 64⟩ ⟨true, ⟨0, 0⟩, false⟩ ⟨ngxOk, ngxOk, true, false, ngxOk⟩
      ⟨⟨fun _ => 0, fun _ _ => 0⟩, 4096⟩ ⟨0, 0⟩).2.2 = none ∧
    ¬ Along (threadStep id) (fun s => s.alive = true)
      (.init (fun _ => 1) ⟨⟨fun _ => 0, fun _ _ => 0⟩, 4096⟩ fun _ => ⟨0, 0⟩)
      [.call 0 ⟨false, true, true, true, true⟩, .runTask 0,
        .complete 0 ⟨ngxOk, false, false, ngxOk⟩] ∧
    ngxHttpNdgBodyFilter ⟨none, ⟨2, 64⟩⟩ ⟨true, true, false⟩ ⟨some ⟨1⟩, [], 7⟩
      [{ ngxCallocBuf with pos := 80, last := 85, memory := true, lastBuf := true }] = none := by
  refine ⟨rfl, fun h => ?_, rfl⟩
  exact Bool.false_ne_true ((h.2 _ rfl).2 _ rfl |>.2 _ rfl)

end NgxNdg
