import NgxNdg.Filter.Body

/-!
# Announced and forwarded length

The header filter announces a length before the body exists; the body filter decides by the
flag alone. This file compares the two decisions: the forwarded length against the announced
one, and the forwarded bytes of two requests that differ in their `ndg_header` list.
-/

namespace NgxNdg

open FirstMark

variable {lcf : NgxHttpNdgFilterLocConf} {r : FilterRequest} {calls : List NgxChain}

/-- The number of forwarded bytes: the body, and the footer when the flag is 1 and some chain
carries the end mark. -/
theorem forwarded_length (st : Store) (lcf : NgxHttpNdgFilterLocConf) (r : FilterRequest)
    (hmark : LastBufAtEnd calls) :
    ∃ r' out, bodyFilterCallsOk lcf r calls = some (r', out) ∧
      (chainBytes st out.flatten).length = (chainBytes st calls.flatten).length +
        if r.flag = 1 ∧ calls.flatten ≠ [] then lcf.footer.len else 0 := by
  by_cases hfwd : lcf.footer.len = 0 ∨ r.flag ≠ 1
  · obtain ⟨r', hrun⟩ := bodyFilterCallsOk_forward hfwd calls
    refine ⟨r', calls, hrun, ?_⟩
    obtain hf | hr := hfwd
    · simp [hf]
    · simp [hr]
  · have hf : lcf.footer.len ≠ 0 := fun h => hfwd (.inl h)
    have hr : r.flag = 1 := by
      by_contra h
      exact hfwd (.inr h)
    obtain ⟨r', hrun⟩ := bodyFilterCallsOk_footer hf hr calls
    refine ⟨r', _, hrun, ?_⟩
    obtain hnil | hmark := hmark
    · have hnone : Unmarked NgxBuf.lastBuf calls.flatten := by
        rw [hnil]
        exact unmarked_nil
      rw [footerCalls_unmarked lcf.footer hnone, if_neg (by simp [hnil])]
      rfl
    · obtain ⟨body, hout, _, hbytes⟩ := footerCalls_flatten lcf.footer hmark
      have hne : calls.flatten ≠ [] := by
        obtain ⟨pre, b, hcalls, _⟩ := hmark
        simp [hcalls]
      rw [hout, if_pos ⟨hr, hne⟩, chainBytes_append, hbytes st, chainBytes_cons, footerBuf_bytes]
      simp

/-- For a non-empty footer, no flag after the passes `ds` means no headers or no pass, and no
positive length in any pass. -/
theorem not_armed_iff (ds : List ℤ) (hf : lcf.footer.len ≠ 0) :
    ¬ Armed lcf ds ↔ (lcf.headers = none ∨ ds = []) ∧ ∀ e ∈ ds, e ≤ 0 := by
  unfold Armed Announces
  rw [not_or, not_and_or, Bool.not_eq_true, Option.isSome_eq_false_iff, Option.isNone_iff_eq_none,
    not_not]
  refine and_congr_right fun _ => ?_
  constructor
  · intro h e he
    by_contra hpos
    exact h ⟨e, he, hf, by omega⟩
  · rintro h ⟨e, he, _, hpos⟩
    have := h e he
    omega

/-- The decisions of the two filters agree: what the passes announce over a body of `L`
bytes is what a body filter call with an end mark adds to it. -/
theorem announced_eq_iff (ds : List ℤ) (L : ℕ) (hf : lcf.footer.len ≠ 0) :
    (((L + if Armed lcf (ds ++ [(L : ℤ)]) then lcf.footer.len else 0 : ℕ) : ℤ) =
        if ¬ Armed lcf ds ∧ Announces lcf L then (L : ℤ) + lcf.footer.len else L) ↔
      (lcf.headers = none ∧ ∀ e ∈ ds, e ≤ 0) ∨ (ds = [] ∧ L ≠ 0) := by
  have harmed := not_armed_iff ds hf
  by_cases hA : Armed lcf ds
  · -- an earlier pass set the flag: the footer comes, but is not announced again
    have hnot : ¬ ((lcf.headers = none ∨ ds = []) ∧ ∀ e ∈ ds, e ≤ 0) := fun h => harmed.mpr h hA
    rw [if_pos (armed_concat.mpr (.inl hA)), if_neg (fun h => h.1 hA)]
    constructor
    · intro h
      omega
    · rintro (⟨hh, hds⟩ | ⟨rfl, _⟩)
      · exact absurd ⟨.inl hh, hds⟩ hnot
      · exact absurd ⟨.inr rfl, by simp⟩ hnot
  obtain ⟨hfirst, hds⟩ := harmed.mp hA
  by_cases hN : Announces lcf L
  · have hL : L ≠ 0 := by
      have hpos := hN.2
      omega
    rw [if_pos (armed_concat.mpr (.inr (.inr hN))), if_pos ⟨hA, hN⟩]
    have hgood := hfirst.imp (fun hh => And.intro hh hds) (fun hnil => And.intro hnil hL)
    exact ⟨fun _ => hgood, fun _ => by push_cast; rfl⟩
  · -- the body is empty, and only the headers can set the flag
    have hL : L = 0 := by
      by_contra hL
      exact hN ⟨hf, by omega⟩
    have hnot : ¬ (¬ Armed lcf ds ∧ Announces lcf L) := fun h => hN h.2
    rw [if_neg hnot]
    cases hh : lcf.headers with
    | none =>
      have hidle : ¬ Armed lcf (ds ++ [(L : ℤ)]) := by
        rw [armed_concat]
        simp [hA, hN, hh]
      rw [if_neg hidle]
      simpa using Or.inl hds
    | some data =>
      rw [if_pos (armed_concat.mpr (.inr (.inl (by simp [hh]))))]
      simp only [hL, reduceCtorEq, false_and, ne_eq, not_true, and_false, or_self, iff_false]
      omega

/-- **Message framing.** Passes with the lengths `ds` and then `d` are followed by the body.
The announced length, when there is one, is the forwarded length exactly when there is no
footer to add, or no length was declared before the last pass, or no buffer at all follows,
or no headers are configured and no earlier pass declared a positive length, or there was
one pass only and the body is not empty. -/
theorem forwarded_eq_announced_iff (st : Store) (lcf : NgxHttpNdgFilterLocConf)
    (hs : List NgxTableElt) (ds : List ℤ) (d : ℤ) (calls : List NgxChain)
    (hmark : LastBufAtEnd calls)
    (hd : d = -1 ∨ d = (chainBytes st calls.flatten).length) :
    ∃ r' out, bodyFilterCallsOk lcf (headerPasses lcf (.fresh hs) (ds ++ [d])) calls =
        some (r', out) ∧
      ((0 ≤ (headerPasses lcf (.fresh hs) (ds ++ [d])).contentLengthN →
          ((chainBytes st out.flatten).length : ℤ) =
            (headerPasses lcf (.fresh hs) (ds ++ [d])).contentLengthN) ↔
        lcf.footer.len = 0 ∨ d = -1 ∨ calls.flatten = [] ∨
          (lcf.headers = none ∧ ∀ e ∈ ds, e ≤ 0) ∨
          (ds = [] ∧ chainBytes st calls.flatten ≠ [])) := by
  obtain ⟨r', out, hrun, hlen⟩ :=
    forwarded_length st lcf (headerPasses lcf (.fresh hs) (ds ++ [d])) hmark
  refine ⟨r', out, hrun, ?_⟩
  rw [hlen, headerPasses_contentLengthN]
  simp only [headerPasses_flag_eq_one]
  by_cases hf : lcf.footer.len = 0
  · have hann : ¬ Announces lcf d := fun h => h.1 hf
    simp only [hf, hann, and_false, ite_self, if_false, Nat.add_zero, true_or, iff_true]
    omega
  by_cases hneg : d = -1
  · have hann : ¬ Announces lcf d := not_announces (by omega)
    simp only [hann, and_false, if_false]
    simp only [hneg, true_or, or_true, iff_true]
    omega
  have hd : d = (chainBytes st calls.flatten).length := hd.resolve_left hneg
  by_cases hnil : calls.flatten = []
  · have hzero : d = 0 := by simpa [hnil] using hd
    have hann : ¬ Announces lcf d := not_announces (by omega)
    simp only [hann, and_false, if_false, hnil, true_or, or_true, iff_true]
    simp [hzero]
  · have hmain := announced_eq_iff ds (chainBytes st calls.flatten).length hf
    simp only [← hd] at hmain
    have hnonneg : 0 ≤ if ¬ Armed lcf ds ∧ Announces lcf d then d + lcf.footer.len else d := by
      split <;> omega
    have hbody : (chainBytes st calls.flatten).length ≠ 0 ↔ chainBytes st calls.flatten ≠ [] := by
      rw [Ne, List.length_eq_zero_iff]
    simp only [hf, hneg, hnil, false_or, ne_eq, not_false_iff, and_true] at hmain hbody ⊢
    rw [← hbody, ← hmain]
    exact ⟨fun h => h hnonneg, fun h _ => h⟩

/-- One pass over a body of five bytes: twelve bytes announced and forwarded. -/
theorem forwarded_eq_announced_hello :
    ∃ r' out, bodyFilterCallsOk ⟨some [⟨⟨6, 300⟩, ⟨6, 310⟩⟩], ⟨7, 200⟩⟩
        (headerPasses ⟨some [⟨⟨6, 300⟩, ⟨6, 310⟩⟩], ⟨7, 200⟩⟩ (.fresh []) ([] ++ [5]))
        [[], [helloBuf], []] = some (r', out) ∧
      ((chainBytes ⟨UInt8.ofNat, fun _ => UInt8.ofNat⟩ out.flatten).length : ℤ) = 12 := by
  obtain ⟨r', out, hrun, hiff⟩ := forwarded_eq_announced_iff
    ⟨UInt8.ofNat, fun _ => UInt8.ofNat⟩ ⟨some [⟨⟨6, 300⟩, ⟨6, 310⟩⟩], ⟨7, 200⟩⟩ [] [] 5
    [[], [helloBuf], []] (.inr ⟨[], helloBuf, rfl, unmarked_nil, rfl⟩) (.inr (by decide))
  exact ⟨r', out, hrun, hiff.mpr (.inr (.inr (.inr (.inr ⟨rfl, by decide⟩)))) (by decide)⟩

/-- An empty body behind an `ndg_header` list: the announced length 0 is not what follows. -/
theorem forwarded_ne_announced_empty_body :
    ¬ ∀ (st : Store) (lcf : NgxHttpNdgFilterLocConf) (hs : List NgxTableElt) (ds : List ℤ) (d : ℤ)
        (calls : List NgxChain), LastBufAtEnd calls →
        d = -1 ∨ d = (chainBytes st calls.flatten).length →
        ∀ r' out, bodyFilterCallsOk lcf (headerPasses lcf (.fresh hs) (ds ++ [d])) calls =
          some (r', out) →
        0 ≤ (headerPasses lcf (.fresh hs) (ds ++ [d])).contentLengthN →
        ((chainBytes st out.flatten).length : ℤ) =
          (headerPasses lcf (.fresh hs) (ds ++ [d])).contentLengthN := by
  intro h
  have hzero := h ⟨UInt8.ofNat, fun _ => UInt8.ofNat⟩
    ⟨some [⟨⟨6, 300⟩, ⟨6, 310⟩⟩], ⟨7, 200⟩⟩ [] [] 0
    [[{ ngxCallocBuf with lastBuf := true }]] (.inr ⟨[], _, rfl, unmarked_nil, rfl⟩)
    (.inr (by decide)) _ _ rfl (by decide)
  exact absurd hzero (by decide)

/-- Putting the footer at the first end mark changes no byte: where the first end mark is on
a link `p`, it is on a non-empty buffer and the links behind `p` hold the bytes of the footer,
which takes their place. -/
def FooterInert (st : Store) (footer : NgxStr) (calls : List NgxChain) : Prop :=
  ∀ calls₁ pre p post calls₂, calls = calls₁ ++ (pre ++ p :: post) :: calls₂ →
    Unmarked NgxBuf.lastBuf calls₁.flatten → Unmarked NgxBuf.lastBuf pre → p.lastBuf = true →
    ngxBufSize p ≠ 0 ∧ chainBytes st post = footer.bytes st

/-- The bytes of one chain around the footer. -/
theorem chainBytes_appendFooter (st : Store) (footer : NgxStr) (pre : NgxChain)
    (p : NgxBuf) (post : NgxChain) :
    chainBytes st (appendFooter footer pre p post) = chainBytes st pre ++ p.bytes st ++
      footer.bytes st ++ if ngxBufSize p = 0 then chainBytes st post else [] := by
  unfold appendFooter
  split
  · next hs =>
    rw [NgxBuf.bytes_of_size_zero st hs]
    simp [footerBuf_bytes]
  · simp [footerBuf_bytes]

theorem footerCalls_split_bytes_iff (st : Store) {footer : NgxStr} (hf : footer.len ≠ 0)
    {calls₁ calls₂ : List NgxChain} {pre post : NgxChain} {p : NgxBuf}
    (hcalls₁ : Unmarked NgxBuf.lastBuf calls₁.flatten) (hpre : Unmarked NgxBuf.lastBuf pre)
    (hp : p.lastBuf = true) :
    chainBytes st (footerCalls footer (calls₁ ++ (pre ++ p :: post) :: calls₂)).flatten =
        chainBytes st (calls₁ ++ (pre ++ p :: post) :: calls₂).flatten ↔
      ngxBufSize p ≠ 0 ∧ chainBytes st post = footer.bytes st := by
  have hfooter : footer.bytes st ≠ [] := by
    intro h
    exact hf (by simpa using congrArg List.length h)
  rw [footerCalls_split footer hcalls₁ hpre hp]
  simp only [List.flatten_append, List.flatten_cons, chainBytes_append, chainBytes_cons,
    chainBytes_appendFooter, List.append_assoc, List.append_cancel_left_eq]
  by_cases hs : ngxBufSize p = 0
  · simp [hs, hfooter]
  · simp only [hs, if_false, List.nil_append, List.append_cancel_right_eq, ne_eq,
      not_false_iff, true_and]
    exact eq_comm

theorem footerCalls_bytes_iff (st : Store) {footer : NgxStr} (calls : List NgxChain)
    (hf : footer.len ≠ 0) :
    chainBytes st (footerCalls footer calls).flatten = chainBytes st calls.flatten ↔
      FooterInert st footer calls := by
  constructor
  · rintro heq calls₁ pre p post calls₂ rfl hcalls₁ hpre hp
    exact (footerCalls_split_bytes_iff st hf hcalls₁ hpre hp).mp heq
  · intro h
    rcases unmarked_or_split_flatten NgxBuf.lastBuf calls with
      hall | ⟨calls₁, pre, p, post, calls₂, rfl, hcalls₁, hpre, hp⟩
    · rw [footerCalls_unmarked footer hall]
    · exact (footerCalls_split_bytes_iff st hf hcalls₁ hpre hp).mpr
        (h calls₁ pre p post calls₂ rfl hcalls₁ hpre hp)

/-- The chains forwarded after the header filter was called with the length `d`. -/
theorem bodyFilterCallsOk_headerPass (lcf : NgxHttpNdgFilterLocConf) (hs : List NgxTableElt)
    (d : ℤ) (calls : List NgxChain) :
    ∃ r', bodyFilterCallsOk lcf (headerPass lcf (.fresh hs) d) calls =
      some (r', if lcf.footer.len ≠ 0 ∧ (lcf.headers.isSome ∨ 0 < d) then
        footerCalls lcf.footer calls else calls) := by
  have hflag := (headerPass_of_flag_zero lcf d (FilterRequest.flag_fresh hs)).1
  by_cases hf : lcf.footer.len = 0
  · rw [if_neg (fun h => h.1 hf)]
    exact bodyFilterCallsOk_forward (.inl hf) calls
  have hann : (lcf.headers.isSome ∨ Announces lcf d) ↔ (lcf.headers.isSome ∨ 0 < d) :=
    or_congr_right (and_iff_right hf)
  simp only [hann] at hflag
  by_cases hset : lcf.headers.isSome ∨ 0 < d
  · rw [if_pos hset] at hflag
    rw [if_pos ⟨hf, hset⟩]
    exact bodyFilterCallsOk_footer hf hflag calls
  · rw [if_neg hset] at hflag
    rw [if_neg (fun h => hset h.2)]
    exact bodyFilterCallsOk_forward (.inr (by rw [hflag]; decide)) calls

/-- **Header directives and the body.** Two requests that differ only in the configured
headers announce the same length, and they forward the same bytes exactly when there is no
footer, or a positive length was declared, or both or neither have a header list, or the
footer changes no byte of these chains. -/
theorem ndgHeader_noninterference_iff (st : Store) (footer : NgxStr)
    (h₁ h₂ : Option (List NgxKeyval)) (hs : List NgxTableElt) (d : ℤ) (calls : List NgxChain) :
    ∃ r₁ out₁ r₂ out₂,
      bodyFilterCallsOk ⟨h₁, footer⟩ (headerPass ⟨h₁, footer⟩ (.fresh hs) d) calls =
        some (r₁, out₁) ∧
      bodyFilterCallsOk ⟨h₂, footer⟩ (headerPass ⟨h₂, footer⟩ (.fresh hs) d) calls =
        some (r₂, out₂) ∧
      ((chainBytes st out₁.flatten = chainBytes st out₂.flatten ∧
          (headerPass ⟨h₁, footer⟩ (.fresh hs) d).contentLengthN =
            (headerPass ⟨h₂, footer⟩ (.fresh hs) d).contentLengthN) ↔
        footer.len = 0 ∨ 0 < d ∨ h₁.isSome = h₂.isSome ∨ FooterInert st footer calls) := by
  obtain ⟨r₁, hrun₁⟩ := bodyFilterCallsOk_headerPass ⟨h₁, footer⟩ hs d calls
  obtain ⟨r₂, hrun₂⟩ := bodyFilterCallsOk_headerPass ⟨h₂, footer⟩ hs d calls
  refine ⟨r₁, _, r₂, _, hrun₁, hrun₂, ?_⟩
  have hlen (h : Option (List NgxKeyval)) : (headerPass ⟨h, footer⟩ (.fresh hs) d).contentLengthN =
      if footer.len ≠ 0 ∧ 0 < d then d + footer.len else d :=
    (headerPass_of_flag_zero ⟨h, footer⟩ d (FilterRequest.flag_fresh hs)).2
  simp only [hlen, and_true]
  by_cases hf : footer.len = 0
  · simp [hf]
  by_cases hd : 0 < d
  · simp [hd]
  have hbytes := footerCalls_bytes_iff st calls hf
  simp only [hf, hd, ne_eq, not_false_iff, true_and, or_false, false_or]
  cases h₁ <;> cases h₂ <;> simp [hbytes]
  exact eq_comm.trans hbytes

/-- A body of undeclared length: the footer comes only with an `ndg_header` list. -/
theorem ndgHeader_interferes :
    ¬ ∀ (st : Store) (footer : NgxStr) (h₁ h₂ : Option (List NgxKeyval)) (hs : List NgxTableElt)
        (d : ℤ) (calls : List NgxChain) (r₁ r₂ : FilterRequest) (out₁ out₂ : List NgxChain),
        bodyFilterCallsOk ⟨h₁, footer⟩ (headerPass ⟨h₁, footer⟩ (.fresh hs) d) calls =
          some (r₁, out₁) →
        bodyFilterCallsOk ⟨h₂, footer⟩ (headerPass ⟨h₂, footer⟩ (.fresh hs) d) calls =
          some (r₂, out₂) →
        chainBytes st out₁.flatten = chainBytes st out₂.flatten ∧
          (headerPass ⟨h₁, footer⟩ (.fresh hs) d).contentLengthN =
            (headerPass ⟨h₂, footer⟩ (.fresh hs) d).contentLengthN := by
  intro h
  have heq := (h ⟨UInt8.ofNat, fun _ => UInt8.ofNat⟩ ⟨7, 200⟩ (some [⟨⟨6, 300⟩, ⟨6, 310⟩⟩]) none
    [] (-1) [[helloBuf]] _ _ _ _ rfl rfl).1
  exact absurd heq (by decide)

end NgxNdg
