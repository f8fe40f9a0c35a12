import Mathlib.Data.List.TakeWhile
import NgxNdg.Filter.Model

/-!
# Header filter passes

What a header filter call does, and the flag and the length that any number of calls leave
behind when no allocation fails.

## Main definitions

- `pushedBy`: the configured entries a call adds to the header list
- `Armed`: passes with these declared lengths leave the flag set
-/

namespace NgxNdg

/-- `ctx->flag`, with 0 for a context not created yet. -/
def FilterRequest.flag (r : FilterRequest) : ℤ :=
  match r.ctx with
  | some ctx => ctx.flag
  | none => 0

/-- The header filter adds the footer length to the declared length `d`. -/
def Announces (lcf : NgxHttpNdgFilterLocConf) (d : ℤ) : Prop := lcf.footer.len ≠ 0 ∧ 0 < d

/-- Passes with the declared lengths `ds` leave the flag set: the headers set it in the
first pass, an announced footer in the pass that announces it. -/
def Armed (lcf : NgxHttpNdgFilterLocConf) (ds : List ℤ) : Prop :=
  (lcf.headers.isSome ∧ ds ≠ []) ∨ ∃ d ∈ ds, Announces lcf d

/-- The configured entries, each with its index. -/
def configured (lcf : NgxHttpNdgFilterLocConf) : List (NgxKeyval × ℕ) :=
  (lcf.headers.getD []).zipIdx

/-- The header of a configured entry. -/
def headerOf (e : NgxKeyval × ℕ) : NgxTableElt := ⟨1, e.1.key, e.1.value⟩

/-- A call with these allocations gets behind the check of the flag. -/
def ReachesHeaders (al : HeaderFilterAllocs) (r : FilterRequest) : Prop :=
  (r.ctx.isSome ∨ al.ctx) ∧ r.flag ≤ 0

instance (al : HeaderFilterAllocs) (r : FilterRequest) : Decidable (ReachesHeaders al r) := by
  unfold ReachesHeaders
  infer_instance

/-- The configured entries that a call adds: those in front of the first push that fails. -/
def pushedBy (lcf : NgxHttpNdgFilterLocConf) (al : HeaderFilterAllocs) (r : FilterRequest) :
    List (NgxKeyval × ℕ) :=
  if ReachesHeaders al r then (configured lcf).takeWhile fun e => al.push e.2 else []

instance (lcf : NgxHttpNdgFilterLocConf) (d : ℤ) : Decidable (Announces lcf d) := by
  unfold Announces
  infer_instance

instance (lcf : NgxHttpNdgFilterLocConf) (ds : List ℤ) : Decidable (Armed lcf ds) := by
  unfold Armed
  infer_instance

variable {lcf : NgxHttpNdgFilterLocConf} {al : HeaderFilterAllocs} {r : FilterRequest} {d : ℤ}
  {ds : List ℤ}

theorem not_announces (h : d ≤ 0) : ¬ Announces lcf d := by
  rintro ⟨_, hpos⟩
  omega

theorem armed_concat : Armed lcf (ds ++ [d]) ↔
    Armed lcf ds ∨ lcf.headers.isSome ∨ Announces lcf d := by
  constructor
  · rintro (⟨hh, _⟩ | ⟨e, he, ha⟩)
    · exact .inr (.inl hh)
    · obtain he | he := List.mem_append.mp he
      · exact .inl (.inr ⟨e, he, ha⟩)
      · rw [List.mem_singleton] at he
        exact .inr (.inr (he ▸ ha))
  · rintro ((⟨hh, _⟩ | ⟨e, he, ha⟩) | hh | ha)
    · exact .inl ⟨hh, by simp⟩
    · exact .inr ⟨e, List.mem_append_left _ he, ha⟩
    · exact .inl ⟨hh, by simp⟩
    · exact .inr ⟨d, by simp, ha⟩

@[simp] theorem FilterRequest.flag_some (f : ℤ) (hs : List NgxTableElt) (n : ℤ) :
    FilterRequest.flag ⟨some ⟨f⟩, hs, n⟩ = f := rfl

@[simp] theorem FilterRequest.flag_fresh (hs : List NgxTableElt) :
    (FilterRequest.fresh hs).flag = 0 := rfl

theorem FilterRequest.ctx_of_flag {f : ℤ} (h : r.flag = f) (hf : f ≠ 0) : r.ctx = some ⟨f⟩ := by
  cases hctx : r.ctx with
  | none =>
    simp only [FilterRequest.flag, hctx] at h
    exact absurd h.symm hf
  | some ctx =>
    simp only [FilterRequest.flag, hctx] at h
    exact congrArg some (congrArg NgxHttpNdgFilterCtx.mk h)

/-- Getting the context succeeds when its allocation does, and does not change the flag. -/
theorem getCtx_ok (r : FilterRequest) :
    getCtx true r = some (⟨some ⟨r.flag⟩, r.headers, r.contentLengthN⟩, ⟨r.flag⟩) := by
  obtain ⟨ctx, hs, n⟩ := r
  cases ctx <;> rfl

/-- The loop pushes the entries in front of the first push that fails. -/
theorem pushHeaders_eq (push : ℕ → Bool) (i : ℕ) (data : List NgxKeyval) (hs : List NgxTableElt) :
    pushHeaders push i data hs =
      (hs ++ ((data.zipIdx i).takeWhile fun e => push e.2).map headerOf,
        (data.zipIdx i).all fun e => push e.2) := by
  induction data generalizing i hs with
  | nil => simp [pushHeaders]
  | cons kv data ih =>
    rw [pushHeaders, List.zipIdx_cons]
    split
    · next hpush => simp [ih, hpush, headerOf]
    · next hpush => simp [hpush]

/-- A call that does not get behind the check of the flag changes neither headers nor length. -/
theorem headerFilter_of_not_reaches (h : ¬ ReachesHeaders al r) :
    (ngxHttpNdgHeaderFilter lcf al r).1.headers = r.headers ∧
      (ngxHttpNdgHeaderFilter lcf al r).1.contentLengthN = r.contentLengthN ∧
      (ngxHttpNdgHeaderFilter lcf al r).1.flag = r.flag := by
  obtain ⟨ctx, hs, n⟩ := r
  obtain ⟨actx, push⟩ := al
  cases ctx with
  | some ctx =>
    have hflag : ctx.flag > 0 := by
      by_contra hle
      exact h ⟨.inl rfl, Int.not_lt.mp hle⟩
    simp [ngxHttpNdgHeaderFilter, getCtx, hflag]
  | none =>
    have hctx : actx = false := by
      rw [← Bool.not_eq_true]
      exact fun hctx => h ⟨.inr hctx, Int.le_refl 0⟩
    simp [ngxHttpNdgHeaderFilter, getCtx, hctx]

/-- Behind the check of the flag, the call continues with the headers and the footer. -/
theorem headerFilter_of_reaches (h : ReachesHeaders al r) :
    ngxHttpNdgHeaderFilter lcf al r =
      match addHeaders lcf al.push { r with ctx := some ⟨r.flag⟩ } ⟨r.flag⟩ with
      | (r, none) => (r, .code ngxError)
      | (r, some _) => (addFooterLen lcf r, .next) := by
  obtain ⟨hctx, hflag⟩ := h
  have hget : getCtx al.ctx r = some ({ r with ctx := some ⟨r.flag⟩ }, ⟨r.flag⟩) := by
    obtain ⟨_ | ctx, hs, n⟩ := r
    · obtain hsome | halloc := hctx
      · exact absurd hsome Bool.false_ne_true
      · rw [halloc]
        rfl
    · rfl
  rw [ngxHttpNdgHeaderFilter, hget]
  exact if_neg (Int.not_lt.mpr hflag)

/-- The first half of the filter, when a push fails. -/
theorem addHeaders_of_fail {push : ℕ → Bool} (ctx : NgxHttpNdgFilterCtx)
    (h : ∃ e ∈ configured lcf, push e.2 = false) :
    addHeaders lcf push r ctx =
      ({ r with
          headers := r.headers ++ ((configured lcf).takeWhile fun e => push e.2).map headerOf },
        none) := by
  obtain ⟨e, he, hpush⟩ := h
  have hall : (configured lcf).all (fun e => push e.2) = false :=
    List.all_eq_false.mpr ⟨e, he, Bool.eq_false_iff.mp hpush⟩
  unfold addHeaders
  cases hlcf : lcf.headers with
  | none =>
    rw [configured, hlcf] at hall
    exact absurd hall Bool.noConfusion
  | some data =>
    rw [configured, hlcf] at hall
    have hpush := pushHeaders_eq push 0 data r.headers
    rw [show (data.zipIdx 0).all (fun e => push e.2) = false from hall] at hpush
    simp only [hpush, configured, hlcf]
    rfl

/-- The first half of the filter, when every push succeeds. -/
theorem addHeaders_of_ok {push : ℕ → Bool} (ctx : NgxHttpNdgFilterCtx)
    (h : ∀ e ∈ configured lcf, push e.2 = true) :
    addHeaders lcf push r ctx =
      if lcf.headers.isSome then
        ({ r with ctx := some ⟨1⟩, headers := r.headers ++ (configured lcf).map headerOf },
          some ⟨1⟩)
      else (r, some ctx) := by
  unfold addHeaders
  cases hlcf : lcf.headers with
  | none => rfl
  | some data =>
    rw [configured, hlcf] at h
    have hall : (data.zipIdx 0).all (fun e => push e.2) = true := List.all_eq_true.mpr h
    have htake : (data.zipIdx 0).takeWhile (fun e => push e.2) = data.zipIdx 0 :=
      List.takeWhile_eq_self_iff.mpr h
    have hpush := pushHeaders_eq push 0 data r.headers
    rw [hall, htake] at hpush
    simp only [hpush, configured, hlcf]
    rfl

/-- A call with a push that fails. -/
theorem headerFilter_of_fail (h : ReachesHeaders al r)
    (hfail : ∃ e ∈ configured lcf, al.push e.2 = false) :
    ngxHttpNdgHeaderFilter lcf al r =
      ({ r with
          ctx := some ⟨r.flag⟩
          headers := r.headers ++ (pushedBy lcf al r).map headerOf },
        .code ngxError) := by
  rw [headerFilter_of_reaches h, addHeaders_of_fail _ hfail, pushedBy, if_pos h]

/-- A call whose pushes all succeed. -/
theorem headerFilter_of_ok (h : ReachesHeaders al r)
    (hok : ∀ e ∈ configured lcf, al.push e.2 = true) :
    ngxHttpNdgHeaderFilter lcf al r =
      (addFooterLen lcf
        { r with
          ctx := some (if lcf.headers.isSome then ⟨1⟩ else ⟨r.flag⟩)
          headers := r.headers ++ (pushedBy lcf al r).map headerOf }, .next) := by
  rw [headerFilter_of_reaches h, addHeaders_of_ok _ hok, pushedBy, if_pos h,
    List.takeWhile_eq_self_iff.mpr hok]
  cases hlcf : lcf.headers with
  | none => simp [configured, hlcf]
  | some data => rfl

@[simp] theorem headers_addFooterLen (lcf : NgxHttpNdgFilterLocConf) (r : FilterRequest) :
    (addFooterLen lcf r).headers = r.headers := by
  unfold addFooterLen
  split <;> rfl

/-- An announced footer sets the flag. -/
theorem addFooterLen_of_announces (h : Announces lcf r.contentLengthN) :
    addFooterLen lcf r =
      { r with contentLengthN := r.contentLengthN + lcf.footer.len, ctx := some ⟨1⟩ } :=
  if_pos h

theorem addFooterLen_of_not_announces (h : ¬ Announces lcf r.contentLengthN) :
    addFooterLen lcf r = r :=
  if_neg h

/-- The flag and the length behind a call whose pushes all succeed. -/
theorem headerFilter_of_ok_flag (h : ReachesHeaders al r)
    (hok : ∀ e ∈ configured lcf, al.push e.2 = true) :
    (ngxHttpNdgHeaderFilter lcf al r).1.flag =
        (if lcf.headers.isSome ∨ Announces lcf r.contentLengthN then 1 else r.flag) ∧
      (ngxHttpNdgHeaderFilter lcf al r).1.contentLengthN =
        if Announces lcf r.contentLengthN then r.contentLengthN + lcf.footer.len
        else r.contentLengthN := by
  rw [headerFilter_of_ok h hok]
  by_cases ha : Announces lcf r.contentLengthN
  · rw [if_pos (Or.inr ha), if_pos ha, addFooterLen_of_announces]
    · exact ⟨rfl, rfl⟩
    · exact ha
  · rw [if_neg ha, addFooterLen_of_not_announces]
    · refine ⟨?_, rfl⟩
      by_cases hsome : lcf.headers.isSome = true
      · rw [if_pos hsome, if_pos (Or.inl hsome)]
        rfl
      · rw [if_neg hsome, if_neg (not_or.mpr ⟨hsome, ha⟩)]
        rfl
    · exact ha

/-- Once the flag is set, a pass only takes over the new length. -/
theorem headerPass_of_flag (h : r.flag = 1) :
    (headerPass lcf r d).flag = 1 ∧ (headerPass lcf r d).contentLengthN = d := by
  have hnot : ¬ ReachesHeaders .ok { r with contentLengthN := d } := by
    rintro ⟨-, hle⟩
    exact absurd (h ▸ hle : (1 : ℤ) ≤ 0) (by decide)
  obtain ⟨-, hlength, hflag⟩ := @headerFilter_of_not_reaches lcf _ _ hnot
  exact ⟨hflag.trans h, hlength⟩

/-- A pass with the flag at 0 sets it for configured headers or an announced footer. -/
theorem headerPass_of_flag_zero (lcf : NgxHttpNdgFilterLocConf) (d : ℤ) (h : r.flag = 0) :
    (headerPass lcf r d).flag = (if lcf.headers.isSome ∨ Announces lcf d then 1 else 0) ∧
      (headerPass lcf r d).contentLengthN =
        if Announces lcf d then d + lcf.footer.len else d := by
  have hreach : ReachesHeaders .ok { r with contentLengthN := d } := ⟨.inr rfl, Int.le_of_eq h⟩
  have hflag : FilterRequest.flag { r with contentLengthN := d } = 0 := h
  have hpass := @headerFilter_of_ok_flag lcf _ _ hreach fun _ _ => rfl
  rwa [hflag] at hpass

theorem headerPasses_concat (r : FilterRequest) (ds : List ℤ) (d : ℤ) :
    headerPasses lcf r (ds ++ [d]) = headerPass lcf (headerPasses lcf r ds) d := by
  simp [headerPasses]

/-- The flag after any number of passes on a fresh request. -/
theorem headerPasses_flag (lcf : NgxHttpNdgFilterLocConf) (hs : List NgxTableElt) (ds : List ℤ) :
    (headerPasses lcf (.fresh hs) ds).flag = if Armed lcf ds then 1 else 0 := by
  induction ds using List.reverseRecOn with
  | nil => simp [headerPasses, Armed]
  | append_singleton ds d ih =>
    rw [headerPasses_concat]
    by_cases harm : Armed lcf ds
    · rw [if_pos harm] at ih
      rw [(headerPass_of_flag ih).1, if_pos (armed_concat.mpr (.inl harm))]
    · rw [if_neg harm] at ih
      rw [(headerPass_of_flag_zero lcf d ih).1]
      simp only [armed_concat, harm, false_or]

theorem headerPasses_flag_eq_one (lcf : NgxHttpNdgFilterLocConf) (hs : List NgxTableElt)
    (ds : List ℤ) : (headerPasses lcf (.fresh hs) ds).flag = 1 ↔ Armed lcf ds := by
  rw [headerPasses_flag]
  by_cases harm : Armed lcf ds <;> simp [harm]

/-- The length after any number of passes on a fresh request: the footer is counted when
the last pass announces it and no earlier pass has set the flag. -/
theorem headerPasses_contentLengthN (hs : List NgxTableElt) (ds : List ℤ) (d : ℤ) :
    (headerPasses lcf (.fresh hs) (ds ++ [d])).contentLengthN =
      if ¬ Armed lcf ds ∧ Announces lcf d then d + lcf.footer.len else d := by
  have hflag := headerPasses_flag lcf hs ds
  rw [headerPasses_concat]
  by_cases harm : Armed lcf ds
  · rw [if_pos harm] at hflag
    rw [(headerPass_of_flag hflag).2, if_neg (fun h => h.1 harm)]
  · rw [if_neg harm] at hflag
    rw [(headerPass_of_flag_zero lcf d hflag).2]
    simp only [harm, not_false_iff, true_and]

end NgxNdg
