import NgxNdg.Lib.Run
import NgxNdg.Subrequest.Model

/-!
# The decision of the access handler

Once a subrequest is recorded, a run of the access handler is a function of that subrequest
alone: of its status, and of whether its output can be read for the log. The code its end was
reported with is not among what the post handler saves.

## Main definitions

- `AccessRequest.recorded`: the subrequest the decision is taken from
- `FailClosed`: the handler lets the client pass only behind a good completion
- `Decided`: a recorded subrequest gets a decision
-/

namespace NgxNdg

open Transition

/-- The subrequest that the context of the request points to. -/
def AccessRequest.recorded (r : AccessRequest) : Option Subrequest :=
  r.ctx.bind fun ctx => ctx.sr.bind fun i => r.subrequests[i]?

/-- The chain has a first link, and the link has a buffer. -/
def Readable (out : List (Option NgxBuf)) : Prop := ∃ buf, out.head? = some (some buf)

/-- The end is reported neither as an error nor as a special response. -/
def Completion.Good (uri : NgxStr) (c : Completion) : Prop :=
  c.uri = uri ∧ c.status = ngxHttpOk ∧ c.rc ≠ ngxError ∧ c.rc < ngxHttpSpecialResponse

/-- However it runs next, the access handler returns `NGX_OK` only when a subrequest to the
uri has completed well. -/
def FailClosed (uri : NgxStr) (r : AccessRequest) : Prop :=
  ∀ pcalloc subrequest t, ngxHttpNdgSubrequestHandler uri pcalloc subrequest r = some (t, ngxOk) →
    ∃ c ∈ r.completions, c.Good uri

/-- When a subrequest is recorded, the next run of the access handler dereferences no `NULL`
and allows or forbids. -/
def Decided (uri : NgxStr) (r : AccessRequest) : Prop :=
  r.ctx ≠ none → ∀ pcalloc subrequest, ∃ t rc,
    ngxHttpNdgSubrequestHandler uri pcalloc subrequest r = some (t, rc) ∧
      (rc = ngxOk ∨ rc = ngxHttpForbidden)

/-- The post handler has a context to save the subrequest in. -/
def Records (r : AccessRequest) (pcalloc : Bool) : Prop := r.ctx ≠ none ∨ pcalloc

/-- The access handler calls `ngx_http_subrequest`. -/
def Starts (uri : NgxStr) (r : AccessRequest) (pcalloc : Bool) : Prop :=
  uri.len ≠ 0 ∧ r.ctx = none ∧ pcalloc = true

/-- A recorded end with status 200 and a body is a good one, or not the first good one. -/
def RecordsGood (uri : NgxStr) (r : AccessRequest) : AccessEvent → Prop
  | .handler _ _ => True
  | .finish _ status out rc pcalloc =>
    Records r pcalloc → status = ngxHttpOk → Readable out →
      (rc ≠ ngxError ∧ rc < ngxHttpSpecialResponse) ∨ ∃ c ∈ r.completions, c.Good uri

/-- A recorded end has produced output. -/
def RecordsReadable (r : AccessRequest) : AccessEvent → Prop
  | .handler _ _ => True
  | .finish _ _ out _ pcalloc => Records r pcalloc → Readable out

/-- Subrequests are made for the configured uri only, and the context points to one of them. -/
structure AccessInv (uri : NgxStr) (r : AccessRequest) : Prop where
  uris : ∀ sr ∈ r.subrequests, sr.uri = uri ∧ uri.len ≠ 0
  ctx : ∀ ctx, r.ctx = some ctx → ∃ i, ctx.sr = some i ∧ i < r.subrequests.length

variable {uri : NgxStr} {r t : AccessRequest}

theorem AccessInv.exists_recorded (h : AccessInv uri r) (hctx : r.ctx ≠ none) :
    ∃ sr ∈ r.subrequests, r.recorded = some sr := by
  obtain ⟨ctx, hsome⟩ := Option.ne_none_iff_exists'.mp hctx
  obtain ⟨i, hi, hlt⟩ := h.ctx ctx hsome
  refine ⟨r.subrequests[i], List.getElem_mem hlt, ?_⟩
  simp [AccessRequest.recorded, hsome, hi, hlt]

/-- The decision on a recorded subrequest that has output. -/
theorem handler_of_readable (pcalloc : Bool) (subrequest : ℤ) {sr : Subrequest}
    (huri : uri.len ≠ 0) (hrec : r.recorded = some sr) (hout : Readable sr.out) :
    ∃ t, ngxHttpNdgSubrequestHandler uri pcalloc subrequest r =
      some (t, if sr.status = ngxHttpOk then ngxOk else ngxHttpForbidden) := by
  obtain ⟨ctx, hctx, hbind⟩ := Option.bind_eq_some_iff.mp hrec
  obtain ⟨buf, hbuf⟩ := hout
  obtain ⟨rest, hlinks⟩ : ∃ rest, sr.out = some buf :: rest := by
    cases hs : sr.out with
    | nil => simp [hs] at hbuf
    | cons link rest =>
      rw [hs, List.head?_cons, Option.some.injEq] at hbuf
      exact ⟨rest, by rw [hbuf]⟩
  refine ⟨{ r with logged := ⟨(ngxBufSize buf).toNat, buf.pos⟩ :: r.logged }, ?_⟩
  simp only [ngxHttpNdgSubrequestHandler, if_neg huri, hctx, hbind, hlinks]

/-- The dereference of `NULL` on a recorded subrequest without output. -/
theorem handler_of_not_readable (pcalloc : Bool) (subrequest : ℤ) {sr : Subrequest}
    (huri : uri.len ≠ 0) (hrec : r.recorded = some sr) (hout : ¬ Readable sr.out) :
    ngxHttpNdgSubrequestHandler uri pcalloc subrequest r = none := by
  obtain ⟨ctx, hctx, hbind⟩ := Option.bind_eq_some_iff.mp hrec
  simp only [ngxHttpNdgSubrequestHandler, if_neg huri, hctx, hbind]
  split
  · next buf rest hlinks => exact absurd ⟨buf, by rw [hlinks, List.head?_cons]⟩ hout
  · rfl
  · rfl

/-- A run of the access handler leaves the context and the completions alone, and starts a
subrequest at most; without a context it does not let the client pass. -/
theorem handler_cases {pcalloc : Bool} {subrequest rc : ℤ}
    (h : ngxHttpNdgSubrequestHandler uri pcalloc subrequest r = some (t, rc)) :
    t.ctx = r.ctx ∧ t.completions = r.completions ∧ (r.ctx = none → rc ≠ ngxOk) ∧
      ((Starts uri r pcalloc ∧ t.calls = r.calls + 1) ∨
        (¬ Starts uri r pcalloc ∧ t.calls = r.calls)) ∧
      (t.subrequests = r.subrequests ∨
        (r.ctx = none ∧ uri.len ≠ 0 ∧
          t.subrequests = r.subrequests ++ [⟨uri, r.args, 0, []⟩])) := by
  unfold ngxHttpNdgSubrequestHandler at h
  split at h
  · next huri =>
    obtain ⟨rfl, rfl⟩ := Prod.mk.inj (Option.some.inj h)
    exact ⟨rfl, rfl, fun _ => by decide, .inr ⟨fun hstarts => hstarts.1 huri, rfl⟩, .inl rfl⟩
  next huri =>
  cases hctx : r.ctx with
  | none =>
    simp only [hctx] at h
    cases pcalloc with
    | false =>
      obtain ⟨rfl, rfl⟩ := Prod.mk.inj (Option.some.inj h)
      have hnot : ¬ Starts uri r false := fun hstarts => Bool.false_ne_true hstarts.2.2
      exact ⟨hctx, rfl, fun _ => by decide, .inr ⟨hnot, rfl⟩, .inl rfl⟩
    | true =>
      have hstarts : Starts uri r true := ⟨huri, hctx, rfl⟩
      simp only [Bool.not_true, Bool.false_eq_true, if_false] at h
      split at h
      · obtain ⟨rfl, rfl⟩ := Prod.mk.inj (Option.some.inj h)
        exact ⟨rfl, rfl, fun _ => by decide, .inl ⟨hstarts, rfl⟩, .inl rfl⟩
      · obtain ⟨rfl, rfl⟩ := Prod.mk.inj (Option.some.inj h)
        exact ⟨rfl, rfl, fun _ => by decide, .inl ⟨hstarts, rfl⟩, .inr ⟨rfl, huri, rfl⟩⟩
  | some ctx =>
    have hnot : ¬ Starts uri r pcalloc := fun hstarts =>
      Option.some_ne_none ctx (hctx.symm.trans hstarts.2.1)
    simp only [hctx] at h
    split at h
    · cases h
    split at h
    · obtain ⟨rfl, rfl⟩ := Prod.mk.inj (Option.some.inj h)
      exact ⟨rfl, rfl, fun hnone => absurd hnone (Option.some_ne_none ctx), .inr ⟨hnot, rfl⟩,
        .inl rfl⟩
    · cases h
    · cases h

theorem finish_cases {i : ℕ} {status : ℤ} {out : List (Option NgxBuf)} {rc : ℤ} {pcalloc : Bool}
    (h : accessStep uri r (.finish i status out rc pcalloc) = some t) :
    ∃ sr ∈ r.subrequests, i < r.subrequests.length ∧
      t.subrequests = r.subrequests.set i { sr with status := status, out := out } ∧
      t.completions = ⟨sr.uri, status, rc⟩ :: r.completions ∧ t.calls = r.calls ∧
      ((Records r pcalloc ∧ t.ctx = some ⟨some i⟩) ∨ (¬ Records r pcalloc ∧ t.ctx = none)) := by
  simp only [accessStep] at h
  cases hsr : r.subrequests[i]? with
  | none =>
    simp only [hsr] at h
    cases h
  | some sr =>
    simp only [hsr, ngxHttpNdgSubrequestPostHandler, Option.some.injEq] at h
    obtain rfl := h
    obtain ⟨hlt, hget⟩ := List.getElem?_eq_some_iff.mp hsr
    refine ⟨sr, hget ▸ List.getElem_mem hlt, hlt, ?_⟩
    cases hctx : r.ctx with
    | none =>
      cases pcalloc
      · refine ⟨rfl, rfl, rfl, .inr ⟨?_, rfl⟩⟩
        rintro (hsome | halloc)
        · exact hsome hctx
        · cases halloc
      · exact ⟨rfl, rfl, rfl, .inl ⟨.inr rfl, rfl⟩⟩
    | some ctx =>
      have hrecords : Records r pcalloc := .inl (by simp [hctx])
      exact ⟨rfl, rfl, rfl, .inl ⟨hrecords, rfl⟩⟩

/-- The subrequest recorded by an end is the one that ended. -/
theorem recorded_of_finish {i : ℕ} {status : ℤ} {out : List (Option NgxBuf)} {rc : ℤ}
    {pcalloc : Bool} (h : accessStep uri r (.finish i status out rc pcalloc) = some t)
    (hrecords : Records r pcalloc) :
    ∃ sr : Subrequest, t.recorded = some { sr with status := status, out := out } := by
  obtain ⟨sr, _, hlt, hsubs, _, _, ⟨_, hctx⟩ | ⟨hnot, _⟩⟩ := finish_cases h
  · refine ⟨sr, ?_⟩
    simp [AccessRequest.recorded, hctx, hsubs, hlt]
  · exact absurd hrecords hnot

theorem AccessInv.step {e : AccessEvent} (h : AccessInv uri r)
    (hstep : accessStep uri r e = some t) : AccessInv uri t := by
  cases e with
  | handler pcalloc subrequest =>
    obtain ⟨⟨t', rc⟩, hcall, rfl⟩ := Option.map_eq_some_iff.mp hstep
    obtain ⟨hctx, _, _, _, hsubs | ⟨hnone, huri, hsubs⟩⟩ := handler_cases hcall
    · exact ⟨hsubs ▸ h.uris, hctx ▸ hsubs ▸ h.ctx⟩
    · refine ⟨?_, ?_⟩
      · intro sr hsr
        rw [hsubs, List.mem_append, List.mem_singleton] at hsr
        obtain hold | rfl := hsr
        · exact h.uris sr hold
        · exact ⟨rfl, huri⟩
      · intro ctx hsome
        rw [hctx, hnone] at hsome
        cases hsome
  | finish i status out rc pcalloc =>
    obtain ⟨sr, hsr, hlt, hsubs, _, _, hctx⟩ := finish_cases hstep
    refine ⟨?_, ?_⟩
    · intro sr' hsr'
      rw [hsubs] at hsr'
      obtain hold | rfl := List.mem_or_eq_of_mem_set hsr'
      · exact h.uris sr' hold
      · exact h.uris sr hsr
    · intro ctx hsome
      obtain ⟨_, hctx⟩ | ⟨_, hctx⟩ := hctx
      · rw [hctx, Option.some.injEq] at hsome
        refine ⟨i, hsome ▸ rfl, ?_⟩
        rw [hsubs, List.length_set]
        exact hlt
      · rw [hctx] at hsome
        cases hsome

/-- A run of the access handler leaves the recorded subrequest alone. -/
theorem recorded_of_handler {pcalloc : Bool} {subrequest : ℤ}
    (hstep : accessStep uri r (.handler pcalloc subrequest) = some t) :
    t.recorded = r.recorded := by
  obtain ⟨⟨t', rc⟩, hcall, rfl⟩ := Option.map_eq_some_iff.mp hstep
  obtain ⟨hctx, _, _, _, hsubs | ⟨hnone, _, _⟩⟩ := handler_cases hcall
  · simp only [AccessRequest.recorded, hctx, hsubs]
  · simp only [AccessRequest.recorded, hctx, hnone, Option.bind_none]

theorem completions_of_handler {pcalloc : Bool} {subrequest : ℤ}
    (hstep : accessStep uri r (.handler pcalloc subrequest) = some t) :
    t.completions = r.completions := by
  obtain ⟨⟨t', rc⟩, hcall, rfl⟩ := Option.map_eq_some_iff.mp hstep
  exact (handler_cases hcall).2.1

theorem AccessInv.init (uri args : NgxStr) : AccessInv uri (.init args) := by
  refine ⟨?_, ?_⟩
  · intro sr hsr
    cases hsr
  · intro ctx hctx
    cases hctx

/-- The access handler fails closed when a recorded subrequest that passes has a good
completion. -/
theorem AccessInv.failClosed_iff (h : AccessInv uri r) :
    FailClosed uri r ↔ ∀ sr, r.recorded = some sr → Readable sr.out → sr.status = ngxHttpOk →
      ∃ c ∈ r.completions, c.Good uri := by
  constructor
  · intro hclosed sr hrec hout hstatus
    have hctx : r.ctx ≠ none := by
      intro hnone
      simp [AccessRequest.recorded, hnone] at hrec
    obtain ⟨sr', hmem, hrec'⟩ := h.exists_recorded hctx
    obtain ⟨t, hcall⟩ := handler_of_readable true ngxOk (h.uris sr' hmem).2 hrec hout
    rw [if_pos hstatus] at hcall
    exact hclosed _ _ t hcall
  · intro hgood pcalloc subrequest t hcall
    by_cases hctx : r.ctx = none
    · obtain ⟨_, _, hrc, _⟩ := handler_cases hcall
      exact absurd rfl (hrc hctx)
    obtain ⟨sr, hmem, hrec⟩ := h.exists_recorded hctx
    by_cases hout : Readable sr.out
    · obtain ⟨t', hcall'⟩ := handler_of_readable pcalloc subrequest (h.uris sr hmem).2 hrec hout
      rw [hcall, Option.some.injEq, Prod.mk.injEq] at hcall'
      by_cases hstatus : sr.status = ngxHttpOk
      · exact hgood sr hrec hout hstatus
      · rw [if_neg hstatus] at hcall'
        exact absurd hcall'.2 (by decide)
    · rw [handler_of_not_readable pcalloc subrequest (h.uris sr hmem).2 hrec hout] at hcall
      cases hcall

/-- A recorded subrequest gets a decision exactly when it has output. -/
theorem AccessInv.decided_iff (h : AccessInv uri r) :
    Decided uri r ↔ ∀ sr, r.recorded = some sr → Readable sr.out := by
  constructor
  · intro hdecided sr hrec
    have hctx : r.ctx ≠ none := by
      intro hnone
      simp [AccessRequest.recorded, hnone] at hrec
    obtain ⟨sr', hmem, _⟩ := h.exists_recorded hctx
    obtain ⟨t, rc, hcall, _⟩ := hdecided hctx true ngxOk
    by_contra hout
    rw [handler_of_not_readable true ngxOk (h.uris sr' hmem).2 hrec hout] at hcall
    cases hcall
  · intro hout hctx pcalloc subrequest
    obtain ⟨sr, hmem, hrec⟩ := h.exists_recorded hctx
    obtain ⟨t, hcall⟩ :=
      handler_of_readable pcalloc subrequest (h.uris sr hmem).2 hrec (hout sr hrec)
    refine ⟨t, _, hcall, ?_⟩
    split
    · exact .inl rfl
    · exact .inr rfl

/-- A step keeps the access closed exactly when it records no bad end with status 200. -/
theorem AccessInv.failClosed_step {e : AccessEvent} (h : AccessInv uri r)
    (hclosed : FailClosed uri r) (hstep : accessStep uri r e = some t) :
    FailClosed uri t ↔ RecordsGood uri r e := by
  rw [h.failClosed_iff] at hclosed
  rw [(h.step hstep).failClosed_iff]
  cases e with
  | handler pcalloc subrequest =>
    rw [recorded_of_handler hstep, completions_of_handler hstep]
    exact iff_of_true hclosed trivial
  | finish i status out rc pcalloc =>
    obtain ⟨sr₀, hmem, _, _, hcompletions, _, hctx⟩ := finish_cases hstep
    have huri : sr₀.uri = uri := (h.uris sr₀ hmem).1
    constructor
    · intro hgood hrecords hstatus hout
      obtain ⟨sr, hrec⟩ := recorded_of_finish hstep hrecords
      obtain ⟨c, hc, hcgood⟩ := hgood _ hrec hout hstatus
      rw [hcompletions, List.mem_cons] at hc
      obtain rfl | hold := hc
      · exact .inl hcgood.2.2
      · exact .inr ⟨c, hold, hcgood⟩
    · intro hgood sr hrec hout hstatus
      obtain ⟨hrecords, _⟩ | ⟨_, hnone⟩ := hctx
      · obtain ⟨sr₁, hrec₁⟩ := recorded_of_finish hstep hrecords
        obtain rfl := Option.some.inj (hrec.symm.trans hrec₁)
        rw [hcompletions]
        obtain ⟨hrc, hlt⟩ | ⟨c, hc, hcgood⟩ := hgood hrecords hstatus hout
        · exact ⟨_, List.mem_cons_self, huri, hstatus, hrc, hlt⟩
        · exact ⟨c, List.mem_cons_of_mem _ hc, hcgood⟩
      · simp [AccessRequest.recorded, hnone] at hrec

/-- **Fail-closed access.** In every state of a run the access handler lets the client pass
only behind a good completion, exactly when every recorded end with status 200 and a body is
reported by a good code, or comes behind one that was. -/
theorem access_fail_closed_iff (uri args : NgxStr) (es : List AccessEvent) :
    Along (accessStep uri) (FailClosed uri) (.init args) es ↔
      Meets (accessStep uri) (RecordsGood uri) (.init args) es := by
  refine along_iff_meets_of_exact (I := AccessInv uri) (fun _ _ _ h hstep => h.step hstep)
    (fun _ _ _ h hclosed hstep => h.failClosed_step hclosed hstep) (.init uri args) ?_ es
  intro pcalloc subrequest t hcall
  obtain ⟨_, _, hrc, _⟩ := handler_cases hcall
  exact absurd rfl (hrc rfl)

/-- A subrequest that fails behind its 200 header is let through. -/
theorem access_open_after_error :
    ¬ Along (accessStep ⟨6, 64⟩) (FailClosed ⟨6, 64⟩) (.init ⟨0, 0⟩)
      [.handler true ngxOk, .finish 0 ngxHttpOk [some ngxCallocBuf] ngxError true] := by
  intro h
  obtain ⟨c, hc, hgood⟩ := ((h.2 _ rfl).2 _ rfl : FailClosed _ _) true ngxOk _ rfl
  obtain rfl := List.mem_singleton.mp hc
  exact hgood.2.2.1 rfl

/-- A step keeps the request decided exactly when it records no end without output. -/
theorem AccessInv.decided_step {e : AccessEvent} (h : AccessInv uri r) (hdecided : Decided uri r)
    (hstep : accessStep uri r e = some t) : Decided uri t ↔ RecordsReadable r e := by
  rw [h.decided_iff] at hdecided
  rw [(h.step hstep).decided_iff]
  cases e with
  | handler pcalloc subrequest =>
    rw [recorded_of_handler hstep]
    exact iff_of_true hdecided trivial
  | finish i status out rc pcalloc =>
    obtain ⟨_, _, _, _, _, _, hctx⟩ := finish_cases hstep
    constructor
    · intro hout hrecords
      obtain ⟨sr, hrec⟩ := recorded_of_finish hstep hrecords
      exact hout _ hrec
    · intro hout sr hrec
      obtain ⟨hrecords, _⟩ | ⟨_, hnone⟩ := hctx
      · obtain ⟨sr₁, hrec₁⟩ := recorded_of_finish hstep hrecords
        obtain rfl := Option.some.inj (hrec.symm.trans hrec₁)
        exact hout hrecords
      · simp [AccessRequest.recorded, hnone] at hrec

/-- **A decision for every recorded subrequest.** In every state of a run the access handler
decides on the recorded subrequest without a fault, exactly when every recorded end has
produced output. -/
theorem access_decided_iff (uri args : NgxStr) (es : List AccessEvent) :
    Along (accessStep uri) (Decided uri) (.init args) es ↔
      Meets (accessStep uri) RecordsReadable (.init args) es := by
  refine along_iff_meets_of_exact (I := AccessInv uri) (fun _ _ _ h hstep => h.step hstep)
    (fun _ _ _ h hdecided hstep => h.decided_step hdecided hstep) (.init uri args) ?_ es
  intro hctx
  exact absurd rfl hctx

/-- A subrequest that ends with a status and no body crashes the worker. -/
theorem access_fault_without_body :
    ¬ Along (accessStep ⟨6, 64⟩) (Decided ⟨6, 64⟩) (.init ⟨0, 0⟩)
      [.handler true ngxOk, .finish 0 204 [] ngxOk true] := by
  intro h
  obtain ⟨t, rc, hcall, _⟩ := ((h.2 _ rfl).2 _ rfl : Decided _ _) (by decide) true ngxOk
  exact absurd hcall.symm (Option.some_ne_none _)

end NgxNdg
