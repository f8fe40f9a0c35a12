import NgxNdg.Filter.Body

/-!
# A failing body filter call

`ngx_http_ndg_body_filter` ends with an error of its own when the context or the footer buffer is
not allocated. Before the second the flag has been set to 2, so that the footer is lost: the calls
behind it forward their chains as they are. The first changes nothing, but a context that is
allocated later has the flag at 0: the call that repeats it forwards the body without the footer.

## Main definitions

- `NoTrace`: a call that ends with an error of its own has changed nothing and can be repeated
- `CtxFails`: the context is missing, and is not allocated
- `FooterBufFails`: the footer is due at an end mark, and its buffer is not allocated
-/

namespace NgxNdg

open FirstMark

/-- The request `r'` and the chain `out` are as `r` and `c` were: the context and every link, and
calling the filter again with successful allocations forwards the body followed by the footer. -/
structure Untouched (st : Store) (lcf : NgxHttpNdgFilterLocConf) (r r' : FilterRequest)
    (c out : NgxChain) : Prop where
  ctx : r'.ctx = r.ctx
  chain : out = c
  again : ∃ r'' out', ngxHttpNdgBodyFilter lcf .ok r' out = some (r'', out', .next) ∧
    chainBytes st out' = chainBytes st c ++ lcf.footer.bytes st

/-- A call that ends with an error of its own has left everything untouched. -/
def NoTrace (st : Store) (lcf : NgxHttpNdgFilterLocConf) (al : BodyFilterAllocs)
    (r : FilterRequest) (c : NgxChain) : Prop :=
  ∀ r' out rc, ngxHttpNdgBodyFilter lcf al r c = some (r', out, .code rc) →
    Untouched st lcf r r' c out

/-- The call needs a context that the request does not have, and it is not allocated. -/
def CtxFails (lcf : NgxHttpNdgFilterLocConf) (al : BodyFilterAllocs) (r : FilterRequest)
    (c : NgxChain) : Prop :=
  c ≠ [] ∧ lcf.footer.len ≠ 0 ∧ r.ctx = none ∧ al.ctx = false

/-- The call finds the end mark for the footer, and its buffer is not allocated. -/
def FooterBufFails (lcf : NgxHttpNdgFilterLocConf) (al : BodyFilterAllocs) (r : FilterRequest)
    (c : NgxChain) : Prop :=
  al.buf = false ∧ ∃ p, BodyFilterReachesMark lcf r c p

variable {lcf : NgxHttpNdgFilterLocConf} {al : BodyFilterAllocs} {r r' : FilterRequest}
  {c out : NgxChain} {rc : ℤ}

theorem bodyFilter_of_ctxFails (h : CtxFails lcf al r c) :
    ngxHttpNdgBodyFilter lcf al r c = some (r, c, .code ngxError) := by
  obtain ⟨hc, hf, hctx, hal⟩ := h
  exact bodyFilter_ctx_fails hc hf hctx hal

/-- The two errors of the filter. -/
theorem bodyFilter_error_cases (h : ngxHttpNdgBodyFilter lcf al r c = some (r', out, .code rc)) :
    CtxFails lcf al r c ∨ FooterBufFails lcf al r c := by
  obtain ⟨r₁, hcall⟩ | ⟨⟨hctx, hal⟩, hcall⟩ | ⟨hf, hr, pre, p, post, rfl, hpre, hp⟩ :=
    bodyFilter_cases lcf al r c
  · cases hcall.symm.trans h
  · -- without a chain or a footer the filter does not come to the context
    refine .inl ⟨fun hc => ?_, fun hf => ?_, hctx, hal⟩
    · rw [ngxHttpNdgBodyFilter, if_pos hc] at h
      cases h
    · rw [ngxHttpNdgBodyFilter, if_pos hf, ite_self] at h
      cases h
  · have hmark : BodyFilterReachesMark lcf r (pre ++ p :: post) p :=
      ⟨hf, hr, pre, post, rfl, hpre, hp⟩
    rw [bodyFilter_at_mark al hf hr hpre hp] at h
    split at h
    · next hbuf => exact .inr ⟨hbuf, p, hmark⟩
    · split at h <;> cases h

/-- Calling again behind a context that failed forwards the body without the footer. -/
theorem footer_missing (h : CtxFails lcf al r c) :
    ∃ r', ngxHttpNdgBodyFilter lcf .ok r c = some (r', c, .next) := by
  have hflag : r.flag ≠ 1 := by
    rw [FilterRequest.flag, h.2.2.1]
    exact Int.zero_ne_one
  obtain ⟨r', hcall, -⟩ := bodyFilter_forward (c := c) (.inr hflag)
  exact ⟨r', hcall⟩

theorem bodyFilter_of_footerBufFails (h : FooterBufFails lcf al r c) :
    ngxHttpNdgBodyFilter lcf al r c =
      some ({ r with ctx := some ⟨2⟩ }, c, .code ngxHttpInternalServerError) := by
  obtain ⟨hbuf, p, hf, hr, pre, post, rfl, hpre, hp⟩ := h
  rw [bodyFilter_at_mark al hf hr hpre hp, if_pos hbuf]

/-- Behind the failure the footer is lost: every later call forwards its chain as it is. -/
theorem footer_lost (h : FooterBufFails lcf al r c) (calls : List NgxChain) :
    ∃ r' r'', ngxHttpNdgBodyFilter lcf al r c =
        some (r', c, .code ngxHttpInternalServerError) ∧
      bodyFilterCallsOk lcf r' calls = some (r'', calls) := by
  have hdone : FilterRequest.flag { r with ctx := some ⟨2⟩ } ≠ 1 := by simp [FilterRequest.flag]
  obtain ⟨r'', hrest⟩ := bodyFilterCallsOk_forward (.inr hdone) calls
  exact ⟨_, r'', bodyFilter_of_footerBufFails h, hrest⟩

/-- **The errors leave a trace.** A failing call leaves no trace if and only if neither the context
nor the footer buffer that it needs fails. -/
theorem no_trace_iff (st : Store) (lcf : NgxHttpNdgFilterLocConf) (al : BodyFilterAllocs)
    (r : FilterRequest) (c : NgxChain) :
    NoTrace st lcf al r c ↔ ¬ CtxFails lcf al r c ∧ ¬ FooterBufFails lcf al r c := by
  constructor
  · intro h
    constructor
    · intro hfails
      obtain ⟨r'', out', hagain, hbytes⟩ := (h _ _ _ (bodyFilter_of_ctxFails hfails)).again
      obtain ⟨r₁, hcall⟩ := footer_missing hfails
      rw [hcall] at hagain
      cases hagain
      have hlen := NgxStr.length_bytes st lcf.footer
      rw [List.self_eq_append_right.mp hbytes] at hlen
      exact hfails.2.1 hlen.symm
    · intro hfails
      have hctx : some ⟨2⟩ = r.ctx := (h _ _ _ (bodyFilter_of_footerBufFails hfails)).ctx
      obtain ⟨-, p, -, hr, -⟩ := hfails
      rw [FilterRequest.ctx_of_flag hr (by decide)] at hctx
      exact absurd hctx (by decide)
  · rintro ⟨hctx, hbuf⟩ r' out rc h
    obtain hfails | hfails := bodyFilter_error_cases h
    · exact absurd hfails hctx
    · exact absurd hfails hbuf

/-- A body `hello` with the end mark and no buffer for its footer. -/
theorem trace_left : ¬ NoTrace ⟨fun _ => 0, fun _ _ => 0⟩ ⟨none, ⟨2, 64⟩⟩ ⟨true, false, true⟩
    ⟨some ⟨1⟩, [], 7⟩
    [{ ngxCallocBuf with pos := 80, last := 85, memory := true, lastBuf := true }] := by
  intro h
  exact absurd (h _ _ _ rfl).ctx (by decide)

end NgxNdg
