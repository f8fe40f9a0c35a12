import NgxNdg.Filter.Header
import NgxNdg.Lib.FirstMark

/-!
# The body filter puts the footer at the first end mark

With successful allocations a run of the body filter is a function of the chains alone:
`footerCalls` when the flag is 1, the identity otherwise. This file proves that and then
reads off the bytes and the end marks of what is forwarded.

## Main definitions

- `appendFooter`: what happens to the chain at its first end mark, in both linkings
- `footerCalls`: the chains of a whole body with the footer at the first end mark
- `EndsMarked`, `LastBufAtEnd`: `last_buf` is on the last buffer of the last non-`NULL`
  chain only
-/

namespace NgxNdg

open FirstMark

/-- The chain `pre`, `p`, `post` after the footer was linked in at `p`: in place of an empty
`p`, or behind `p` with the end marks of `p` cleared. -/
def appendFooter (footer : NgxStr) (pre : NgxChain) (p : NgxBuf) (post : NgxChain) : NgxChain :=
  if ngxBufSize p = 0 then pre ++ footerBuf footer :: post
  else pre ++ [{ p with lastBuf := false, lastInChain := false }, footerBuf footer]

/-- The chains of successive calls with the footer at the first end mark. -/
def footerCalls (footer : NgxStr) : List NgxChain → List NgxChain
  | [] => []
  | c :: calls =>
    match c.dropWhile fun b => !b.lastBuf with
    | [] => c :: footerCalls footer calls
    | p :: post => appendFooter footer (c.takeWhile fun b => !b.lastBuf) p post :: calls

/-- There is a non-`NULL` chain, and `last_buf` is on the last buffer of the last one and
nowhere else. -/
def EndsMarked (calls : List NgxChain) : Prop :=
  ∃ pre b, calls.flatten = pre ++ [b] ∧ Unmarked NgxBuf.lastBuf pre ∧ b.lastBuf = true

/-- `EndsMarked`, or all the chains are `NULL`. -/
def LastBufAtEnd (calls : List NgxChain) : Prop := calls.flatten = [] ∨ EndsMarked calls

/-- The body filter has a footer to put at an end mark. -/
def BodyFilterReachesMark (lcf : NgxHttpNdgFilterLocConf) (r : FilterRequest) (c : NgxChain)
    (p : NgxBuf) : Prop :=
  lcf.footer.len ≠ 0 ∧ r.flag = 1 ∧
    ∃ pre post, c = pre ++ p :: post ∧ Unmarked NgxBuf.lastBuf pre ∧ p.lastBuf = true

variable {lcf : NgxHttpNdgFilterLocConf} {r : FilterRequest} {c pre post : NgxChain} {p : NgxBuf}

/-- Without a footer, or with the flag not at 1, a call forwards its chain. -/
theorem bodyFilter_forward (h : lcf.footer.len = 0 ∨ r.flag ≠ 1) :
    ∃ r', ngxHttpNdgBodyFilter lcf .ok r c = some (r', c, .next) ∧ r'.flag = r.flag := by
  unfold ngxHttpNdgBodyFilter
  by_cases hc : c = []
  · exact ⟨r, by rw [if_pos hc], rfl⟩
  rw [if_neg hc]
  by_cases hf : lcf.footer.len = 0
  · exact ⟨r, by rw [if_pos hf], rfl⟩
  have hne : r.flag ≠ 1 := h.resolve_left hf
  rw [if_neg hf, BodyFilterAllocs.ok, getCtx_ok]
  refine ⟨⟨some ⟨r.flag⟩, r.headers, r.contentLengthN⟩, ?_, rfl⟩
  exact if_pos hne

/-- A call on a chain without end mark forwards it and keeps the request. -/
theorem bodyFilter_unmarked (hr : r.flag = 1) (hc : Unmarked NgxBuf.lastBuf c) :
    ngxHttpNdgBodyFilter lcf .ok r c = some (r, c, .next) := by
  have hctx : r.ctx = some ⟨1⟩ := FilterRequest.ctx_of_flag hr (by decide)
  unfold ngxHttpNdgBodyFilter
  simp only [getCtx, hctx, dropWhile_of_unmarked hc]
  simp

/-- A call on a chain with an end mark sets the flag to 2 and puts the footer there, unless an
allocation fails. -/
theorem bodyFilter_at_mark (al : BodyFilterAllocs) (hf : lcf.footer.len ≠ 0) (hr : r.flag = 1)
    (hpre : Unmarked NgxBuf.lastBuf pre) (hp : p.lastBuf = true) :
    ngxHttpNdgBodyFilter lcf al r (pre ++ p :: post) =
      if al.buf = false then
        some ({ r with ctx := some ⟨2⟩ }, pre ++ p :: post, .code ngxHttpInternalServerError)
      else if ngxBufSize p ≠ 0 ∧ al.link = false then none
      else some ({ r with ctx := some ⟨2⟩ }, appendFooter lcf.footer pre p post, .next) := by
  have hctx : r.ctx = some ⟨1⟩ := FilterRequest.ctx_of_flag hr (by decide)
  have hne : pre ++ p :: post ≠ [] := by simp
  unfold ngxHttpNdgBodyFilter appendFooter
  simp only [if_neg hne, if_neg hf, getCtx, hctx, dropWhile_split hpre hp,
    takeWhile_split hpre hp]
  cases al.buf <;> cases al.link <;> by_cases hs : ngxBufSize p = 0 <;> simp [hs]

/-- A call on a chain with an end mark puts the footer there and sets the flag to 2. -/
theorem bodyFilter_marked (hf : lcf.footer.len ≠ 0) (hr : r.flag = 1)
    (hpre : Unmarked NgxBuf.lastBuf pre) (hp : p.lastBuf = true) :
    ngxHttpNdgBodyFilter lcf .ok r (pre ++ p :: post) =
      some ({ r with ctx := some ⟨2⟩ }, appendFooter lcf.footer pre p post, .next) := by
  rw [bodyFilter_at_mark .ok hf hr hpre hp]
  simp [BodyFilterAllocs.ok]

/-- Without a context and its allocation a call changes nothing and fails. -/
theorem bodyFilter_ctx_fails {al : BodyFilterAllocs} (hc : c ≠ []) (hf : lcf.footer.len ≠ 0)
    (hctx : r.ctx = none) (hal : al.ctx = false) :
    ngxHttpNdgBodyFilter lcf al r c = some (r, c, .code ngxError) := by
  simp [ngxHttpNdgBodyFilter, hc, hf, getCtx, hctx, hal]

/-- A call forwards its chain as it is, fails to make the context, or finds an end mark with the
flag at 1. -/
theorem bodyFilter_cases (lcf : NgxHttpNdgFilterLocConf) (al : BodyFilterAllocs)
    (r : FilterRequest) (c : NgxChain) :
    (∃ r', ngxHttpNdgBodyFilter lcf al r c = some (r', c, .next)) ∨
    ((r.ctx = none ∧ al.ctx = false) ∧
      ngxHttpNdgBodyFilter lcf al r c = some (r, c, .code ngxError)) ∨
    (lcf.footer.len ≠ 0 ∧ r.flag = 1 ∧ ∃ pre p post, c = pre ++ p :: post ∧
      Unmarked NgxBuf.lastBuf pre ∧ p.lastBuf = true) := by
  by_cases hc : c = []
  · exact .inl ⟨r, by rw [ngxHttpNdgBodyFilter, if_pos hc]⟩
  by_cases hf : lcf.footer.len = 0
  · exact .inl ⟨r, by rw [ngxHttpNdgBodyFilter, if_neg hc, if_pos hf]⟩
  rw [ngxHttpNdgBodyFilter, if_neg hc, if_neg hf]
  obtain ⟨ctx, headers, n⟩ := r
  cases ctx with
  | none =>
    cases hal : al.ctx with
    | false => exact .inr (.inl ⟨⟨rfl, rfl⟩, rfl⟩)
    | true => exact .inl ⟨_, rfl⟩
  | some ctx =>
    obtain ⟨flag⟩ := ctx
    by_cases hflag : flag = 1
    · obtain hun | ⟨pre, p, post, rfl, hpre, hp⟩ := unmarked_or_split NgxBuf.lastBuf c
      · refine .inl ⟨⟨some ⟨flag⟩, headers, n⟩, ?_⟩
        simp only [getCtx, dropWhile_of_unmarked hun, ne_eq, hflag, not_true, if_false]
      · exact .inr (.inr ⟨hf, hflag, pre, p, post, rfl, hpre, hp⟩)
    · refine .inl ⟨⟨some ⟨flag⟩, headers, n⟩, ?_⟩
      simp only [getCtx, ne_eq, hflag, not_false_eq_true, if_true]

/-- What a call forwards is its chain, or the chain with the footer at an end mark. -/
theorem bodyFilter_out {al : BodyFilterAllocs} {r' : FilterRequest} {out : NgxChain}
    {ret : FilterReturn} (h : ngxHttpNdgBodyFilter lcf al r c = some (r', out, ret)) :
    out = c ∨ lcf.footer.len ≠ 0 ∧
      ∃ pre p post, c = pre ++ p :: post ∧ out = appendFooter lcf.footer pre p post := by
  obtain ⟨r₁, hcall⟩ | ⟨_, hcall⟩ | ⟨hf, hr, pre, p, post, rfl, hpre, hp⟩ :=
    bodyFilter_cases lcf al r c
  · obtain ⟨_, hsame⟩ := Prod.mk.inj (Option.some.inj (hcall.symm.trans h))
    exact .inl (Prod.mk.inj hsame).1.symm
  · obtain ⟨_, hsame⟩ := Prod.mk.inj (Option.some.inj (hcall.symm.trans h))
    exact .inl (Prod.mk.inj hsame).1.symm
  · rw [bodyFilter_at_mark al hf hr hpre hp] at h
    split at h
    · obtain ⟨_, hsame⟩ := Prod.mk.inj (Option.some.inj h)
      exact .inl (Prod.mk.inj hsame).1.symm
    split at h
    · cases h
    · obtain ⟨_, hsame⟩ := Prod.mk.inj (Option.some.inj h)
      exact .inr ⟨hf, pre, p, post, rfl, (Prod.mk.inj hsame).1.symm⟩

theorem bodyFilterCallsOk_cons {r' r'' : FilterRequest} {c' : NgxChain} {out : List NgxChain}
    {calls : List NgxChain} (h : ngxHttpNdgBodyFilter lcf .ok r c = some (r', c', .next))
    (hrest : bodyFilterCallsOk lcf r' calls = some (r'', out)) :
    bodyFilterCallsOk lcf r (c :: calls) = some (r'', c' :: out) := by
  unfold bodyFilterCallsOk at hrest ⊢
  simp [bodyFilterCalls, h, hrest]

/-- Without a footer, or with the flag not at 1, every chain is forwarded unchanged. -/
theorem bodyFilterCallsOk_forward (h : lcf.footer.len = 0 ∨ r.flag ≠ 1) (calls : List NgxChain) :
    ∃ r', bodyFilterCallsOk lcf r calls = some (r', calls) := by
  induction calls generalizing r with
  | nil => exact ⟨r, rfl⟩
  | cons c calls ih =>
    obtain ⟨r', hcall, hflag⟩ := bodyFilter_forward (c := c) h
    obtain ⟨r'', hrest⟩ := ih (by rw [hflag]; exact h)
    exact ⟨r'', bodyFilterCallsOk_cons hcall hrest⟩

/-- **Refinement.** With the flag at 1 the calls put the footer at the first end mark. -/
theorem bodyFilterCallsOk_footer (hf : lcf.footer.len ≠ 0) (hr : r.flag = 1)
    (calls : List NgxChain) :
    ∃ r', bodyFilterCallsOk lcf r calls = some (r', footerCalls lcf.footer calls) := by
  induction calls with
  | nil => exact ⟨r, rfl⟩
  | cons c calls ih =>
    obtain hc | ⟨pre, p, post, rfl, hpre, hp⟩ := unmarked_or_split NgxBuf.lastBuf c
    · obtain ⟨r', hrest⟩ := ih
      refine ⟨r', ?_⟩
      rw [footerCalls, dropWhile_of_unmarked hc]
      exact bodyFilterCallsOk_cons (bodyFilter_unmarked hr hc) hrest
    · -- after the footer the flag is 2, so the rest is forwarded as it is
      have hdone : FilterRequest.flag { r with ctx := some ⟨2⟩ } ≠ 1 := by simp [FilterRequest.flag]
      obtain ⟨r', hrest⟩ := bodyFilterCallsOk_forward (.inr hdone) calls
      refine ⟨r', ?_⟩
      rw [footerCalls, dropWhile_split hpre hp, takeWhile_split hpre hp]
      exact bodyFilterCallsOk_cons (bodyFilter_marked hf hr hpre hp) hrest

theorem footerBuf_bytes (footer : NgxStr) (st : Store) :
    (footerBuf footer).bytes st = footer.bytes st := rfl

/-- Up to the first end mark the chains are unchanged. -/
theorem footerCalls_split (footer : NgxStr) {calls₁ calls₂ : List NgxChain}
    (h : Unmarked NgxBuf.lastBuf calls₁.flatten)
    (hpre : Unmarked NgxBuf.lastBuf pre) (hp : p.lastBuf = true) :
    footerCalls footer (calls₁ ++ (pre ++ p :: post) :: calls₂) =
      calls₁ ++ appendFooter footer pre p post :: calls₂ := by
  induction calls₁ with
  | nil =>
    rw [List.nil_append, footerCalls, dropWhile_split hpre hp, takeWhile_split hpre hp]
    rfl
  | cons c calls₁ ih =>
    rw [List.flatten_cons, unmarked_append] at h
    rw [List.cons_append, footerCalls, dropWhile_of_unmarked h.1]
    simp only [ih h.2, List.cons_append]

theorem footerCalls_unmarked (footer : NgxStr) {calls : List NgxChain}
    (h : Unmarked NgxBuf.lastBuf calls.flatten) :
    footerCalls footer calls = calls := by
  induction calls with
  | nil => rfl
  | cons c calls ih =>
    rw [List.flatten_cons, unmarked_append] at h
    rw [footerCalls, dropWhile_of_unmarked h.1]
    simp only [ih h.2]

/-- The marked buffer gives way to the footer alone, or keeps its bytes before it. -/
theorem appendFooter_eq (footer : NgxStr) (pre : NgxChain) (p : NgxBuf) :
    ∃ q, appendFooter footer pre p [] = pre ++ q ++ [footerBuf footer] ∧
      Unmarked NgxBuf.lastBuf q ∧ ∀ st, chainBytes st q = p.bytes st := by
  unfold appendFooter
  split
  · next hs =>
    refine ⟨[], by simp, unmarked_nil, fun st => ?_⟩
    rw [NgxBuf.bytes_of_size_zero st hs, chainBytes_nil]
  · refine ⟨[{ p with lastBuf := false, lastInChain := false }], by simp, by simp, fun st => ?_⟩
    simp

/-- With the end mark on the last buffer, the forwarded buffers are those of the body, not
marked any more, and then the footer buffer. -/
theorem footerCalls_flatten (footer : NgxStr) {calls : List NgxChain}
    (h : EndsMarked calls) :
    ∃ body, (footerCalls footer calls).flatten = body ++ [footerBuf footer] ∧
      Unmarked NgxBuf.lastBuf body ∧
      ∀ st, chainBytes st body = chainBytes st calls.flatten := by
  obtain ⟨pre, b, hcalls, hpre, hb⟩ := h
  rcases unmarked_or_split_flatten NgxBuf.lastBuf calls with
    hall | ⟨calls₁, pre', p, post, calls₂, rfl, hcalls₁, hpre', hp⟩
  · rw [hcalls, unmarked_append, unmarked_cons] at hall
    exact absurd hb (by simp [hall.2.1])
  · -- the first mark is the only one, so nothing follows it
    have hsplit : (calls₁.flatten ++ pre') ++ p :: (post ++ calls₂.flatten) = pre ++ b :: [] := by
      rw [← hcalls]
      simp
    obtain ⟨rfl, rfl, hnil⟩ := split_unique (unmarked_append.mpr ⟨hcalls₁, hpre'⟩) hp hpre hb hsplit
    obtain ⟨rfl, hrest⟩ := List.append_eq_nil_iff.mp hnil
    obtain ⟨q, happ, hq, hbytes⟩ := appendFooter_eq footer pre' p
    refine ⟨calls₁.flatten ++ pre' ++ q, ?_, ?_, fun st => ?_⟩
    · rw [footerCalls_split footer hcalls₁ hpre' hp, happ]
      simp [hrest]
    · exact unmarked_append.mpr ⟨unmarked_append.mpr ⟨hcalls₁, hpre'⟩, hq⟩
    · rw [hcalls]
      simp [hbytes st]

/-- **Footer exactly once, nothing lost.** For a non-empty footer and the flag at 1 the
forwarded bytes are the body and then the footer, and the only forwarded buffer with
`last_buf` is the final one; for any other flag every chain is forwarded unchanged. -/
theorem footer_once_nothing_lost (st : Store) (lcf : NgxHttpNdgFilterLocConf) (r : FilterRequest)
    (calls : List NgxChain) (hf : lcf.footer.len ≠ 0) :
    (r.flag = 1 → EndsMarked calls →
      ∃ r' out body last, bodyFilterCallsOk lcf r calls = some (r', out) ∧
        chainBytes st out.flatten = chainBytes st calls.flatten ++ lcf.footer.bytes st ∧
        out.flatten = body ++ [last] ∧ last.lastBuf = true ∧ Unmarked NgxBuf.lastBuf body) ∧
    (r.flag ≠ 1 → ∃ r', bodyFilterCallsOk lcf r calls = some (r', calls)) := by
  constructor
  · intro hr hmark
    obtain ⟨r', hrun⟩ := bodyFilterCallsOk_footer hf hr calls
    obtain ⟨body, hout, hbody, hbytes⟩ := footerCalls_flatten lcf.footer hmark
    refine ⟨r', _, body, footerBuf lcf.footer, hrun, ?_, hout, rfl, hbody⟩
    rw [hout, chainBytes_append, hbytes st, chainBytes_cons, footerBuf_bytes, chainBytes_nil,
      List.append_nil]
  · exact fun hr => bodyFilterCallsOk_forward (.inr hr) calls

/-- A body of five bytes in one buffer that carries both end marks. -/
def helloBuf : NgxBuf :=
  { ngxCallocBuf with
    pos := 100
    last := 105
    memory := true
    lastBuf := true
    lastInChain := true }

/-- The body `hello` between two `NULL` chains, with a footer of seven bytes. -/
theorem footer_once_hello :
    ∃ r' out body last, bodyFilterCallsOk ⟨none, ⟨7, 200⟩⟩ ⟨some ⟨1⟩, [], 12⟩ [[], [helloBuf], []] =
        some (r', out) ∧
      chainBytes ⟨UInt8.ofNat, fun _ => UInt8.ofNat⟩ out.flatten =
        chainBytes ⟨UInt8.ofNat, fun _ => UInt8.ofNat⟩ [[], [helloBuf], []].flatten ++
          NgxStr.bytes ⟨UInt8.ofNat, fun _ => UInt8.ofNat⟩ ⟨7, 200⟩ ∧
      out.flatten = body ++ [last] ∧ last.lastBuf = true ∧ Unmarked NgxBuf.lastBuf body :=
  (footer_once_nothing_lost ⟨UInt8.ofNat, fun _ => UInt8.ofNat⟩ ⟨none, ⟨7, 200⟩⟩
    ⟨some ⟨1⟩, [], 12⟩ [[], [helloBuf], []] (by decide)).1 rfl
    ⟨[], helloBuf, rfl, unmarked_nil, rfl⟩

end NgxNdg
