import Mathlib.Data.List.Nodup
import Mathlib.Data.List.Range
import NgxNdg.Filter.Header
import NgxNdg.Lib.Run

/-!
# The header filter called again

The flag that keeps a later call of `ngx_http_ndg_header_filter` from doing its work again is set
behind the loop over the configured headers. A call whose `ngx_list_push` fails behind one that
succeeded leaves the headers of the successful ones in the list and the flag at 0, and the next
call adds them once more.

## Main definitions

- `headerStep`: a call, with the entries added so far
- `AppliedOnce`: every entry has at most one copy, the length at most one footer, and a call that
  failed has added nothing
- `StopsMidway`: the call fails in the loop, behind a push that succeeded
-/

namespace NgxNdg

open Transition

/-- A request after some calls: the entries added so far, the header list before the last call and
how that call ended. -/
structure HeaderRun where
  r : FilterRequest
  added : List (NgxKeyval × ℕ)
  before : List NgxTableElt
  last : Option FilterReturn

/-- A request before the first call. -/
def HeaderRun.start (r : FilterRequest) : HeaderRun := ⟨r, [], r.headers, none⟩

/-- One call. -/
def headerStep (lcf : NgxHttpNdgFilterLocConf) (s : HeaderRun) (al : HeaderFilterAllocs) :
    Option HeaderRun :=
  let (r, ret) := ngxHttpNdgHeaderFilter lcf al s.r
  some ⟨r, s.added ++ pushedBy lcf al s.r, s.r.headers, some ret⟩

/-- The changes to the request `r₀` have been applied at most once. -/
structure AppliedOnce (lcf : NgxHttpNdgFilterLocConf) (r₀ : FilterRequest) (s : HeaderRun) :
    Prop where
  headers : s.r.headers = r₀.headers ++ s.added.map headerOf
  copies : s.added.Nodup
  length : s.r.contentLengthN = r₀.contentLengthN ∨
    s.r.contentLengthN = r₀.contentLengthN + lcf.footer.len
  error : s.last = some (.code ngxError) → s.r.headers = s.before

/-- The call fails in the loop, behind a push that succeeded. -/
def StopsMidway (lcf : NgxHttpNdgFilterLocConf) (al : HeaderFilterAllocs) (r : FilterRequest) :
    Prop :=
  ReachesHeaders al r ∧ al.push 0 ∧ ∃ e ∈ configured lcf, al.push e.2 = false

variable {lcf : NgxHttpNdgFilterLocConf} {al : HeaderFilterAllocs} {r : FilterRequest}

theorem headerStep_eq (s : HeaderRun) :
    headerStep lcf s al =
      some ⟨(ngxHttpNdgHeaderFilter lcf al s.r).1, s.added ++ pushedBy lcf al s.r, s.r.headers,
        some (ngxHttpNdgHeaderFilter lcf al s.r).2⟩ := rfl

/-- Every call extends the header list by the entries it adds. -/
theorem headers_headerFilter (lcf : NgxHttpNdgFilterLocConf) (al : HeaderFilterAllocs)
    (r : FilterRequest) :
    (ngxHttpNdgHeaderFilter lcf al r).1.headers =
      r.headers ++ (pushedBy lcf al r).map headerOf := by
  by_cases h : ReachesHeaders al r
  · by_cases hok : ∀ e ∈ configured lcf, al.push e.2 = true
    · rw [headerFilter_of_ok h hok, headers_addFooterLen]
    · simp only [not_forall, Bool.not_eq_true, exists_prop] at hok
      rw [headerFilter_of_fail h hok]
  · rw [(headerFilter_of_not_reaches h).1, pushedBy, if_neg h, List.map_nil, List.append_nil]

/-- A call adds different entries. -/
theorem nodup_pushedBy (lcf : NgxHttpNdgFilterLocConf) (al : HeaderFilterAllocs)
    (r : FilterRequest) : (pushedBy lcf al r).Nodup := by
  have hconf : (configured lcf).Nodup := by
    apply List.Nodup.of_map Prod.snd
    rw [configured, List.zipIdx_map_snd]
    exact List.nodup_range'
  unfold pushedBy
  split
  · exact hconf.sublist (List.takeWhile_sublist _)
  · exact List.nodup_nil

/-- What holds along a run without a call that stops midway: nothing has been changed while the
flag is not set. -/
structure OnceInv (lcf : NgxHttpNdgFilterLocConf) (r₀ : FilterRequest) (s : HeaderRun) : Prop where
  once : AppliedOnce lcf r₀ s
  fresh : s.r.flag ≤ 0 → s.added = [] ∧ s.r.contentLengthN = r₀.contentLengthN

/-- When the first push fails, nothing is added. -/
theorem pushedBy_of_first_fails (h : al.push 0 = false) : pushedBy lcf al r = [] := by
  have htake : (configured lcf).takeWhile (fun e => al.push e.2) = [] := by
    unfold configured
    cases lcf.headers.getD [] with
    | nil => rfl
    | cons kv data => simp [List.zipIdx_cons, h]
  unfold pushedBy
  split
  · exact htake
  · rfl

/-- Without an array of headers, nothing is added. -/
theorem pushedBy_of_none (h : lcf.headers = none) : pushedBy lcf al r = [] := by
  rw [pushedBy, configured, h]
  split <;> rfl

/-- When the first push succeeds and a later one fails, something is added. -/
theorem pushedBy_of_stopsMidway (h : StopsMidway lcf al r) : pushedBy lcf al r ≠ [] := by
  obtain ⟨hreach, hpush, e, he, -⟩ := h
  rw [pushedBy, if_pos hreach]
  unfold configured at he ⊢
  cases hdata : lcf.headers.getD [] with
  | nil =>
    rw [hdata] at he
    exact absurd he List.not_mem_nil
  | cons kv data => simp [List.zipIdx_cons, hpush]

/-- A call that adds nothing, and leaves flag and length alone, keeps the invariant. -/
theorem OnceInv.keep {r₀ : FilterRequest} {s : HeaderRun} (h : OnceInv lcf r₀ s)
    (hadd : pushedBy lcf al s.r = []) {ret : FilterReturn} {r' : FilterRequest}
    (hheaders : r'.headers = s.r.headers) (hlength : r'.contentLengthN = s.r.contentLengthN)
    (hflag : r'.flag = s.r.flag) :
    OnceInv lcf r₀ ⟨r', s.added ++ pushedBy lcf al s.r, s.r.headers, some ret⟩ := by
  rw [hadd, List.append_nil]
  constructor
  · exact ⟨hheaders.trans h.once.headers, h.once.copies, hlength ▸ h.once.length,
      fun _ => hheaders⟩
  · intro hle
    exact ⟨(h.fresh (hflag ▸ hle)).1, hlength.trans (h.fresh (hflag ▸ hle)).2⟩

/-- The call that comes to the end of the loop adds every entry, and the footer. -/
theorem OnceInv.complete {r₀ : FilterRequest} {s t : HeaderRun} (h : OnceInv lcf r₀ s)
    (hreach : ReachesHeaders al s.r) (hok : ∀ e ∈ configured lcf, al.push e.2 = true)
    (hstep : headerStep lcf s al = some t) : OnceInv lcf r₀ t := by
  rw [headerStep_eq] at hstep
  obtain rfl := Option.some.inj hstep
  obtain ⟨hnone, hlength⟩ := h.fresh hreach.2
  obtain ⟨hflag, hfooter⟩ := headerFilter_of_ok_flag hreach hok
  have hheaders : s.r.headers = r₀.headers := by
    rw [h.once.headers, hnone]
    exact List.append_nil _
  have hret : (ngxHttpNdgHeaderFilter lcf al s.r).2 = .next := by rw [headerFilter_of_ok hreach hok]
  rw [hnone, List.nil_append]
  refine ⟨⟨?_, nodup_pushedBy lcf al s.r, ?_, ?_⟩, ?_⟩
  · exact hheaders ▸ headers_headerFilter lcf al s.r
  · show (ngxHttpNdgHeaderFilter lcf al s.r).1.contentLengthN = _ ∨
      (ngxHttpNdgHeaderFilter lcf al s.r).1.contentLengthN = _
    rw [hfooter, ← hlength]
    split
    · exact .inr rfl
    · exact .inl rfl
  · intro herror
    exact absurd (hret.symm.trans (Option.some.inj herror)) FilterReturn.noConfusion
  · -- the flag stays at 0 only when there are neither headers nor a footer to announce
    intro hle
    have hidle : ¬ (lcf.headers.isSome ∨ Announces lcf s.r.contentLengthN) := by
      intro hset
      rw [if_pos hset] at hflag
      exact absurd (hflag ▸ hle : (1 : ℤ) ≤ 0) (by decide)
    obtain ⟨hheaders, hann⟩ := not_or.mp hidle
    rw [if_neg hann] at hfooter
    exact ⟨pushedBy_of_none (Option.not_isSome_iff_eq_none.mp hheaders), hfooter.trans hlength⟩

/-- A call that does not stop midway keeps the changes applied at most once. -/
theorem OnceInv.step {r₀ : FilterRequest} {s t : HeaderRun} (h : OnceInv lcf r₀ s)
    (hmid : ¬ StopsMidway lcf al s.r) (hstep : headerStep lcf s al = some t) :
    OnceInv lcf r₀ t := by
  by_cases hreach : ReachesHeaders al s.r
  · by_cases hok : ∀ e ∈ configured lcf, al.push e.2 = true
    · exact h.complete hreach hok hstep
    · simp only [not_forall, Bool.not_eq_true, exists_prop] at hok
      have hfirst : al.push 0 = false := by
        rw [← Bool.not_eq_true]
        exact fun hpush => hmid ⟨hreach, hpush, hok⟩
      have hadd : pushedBy lcf al s.r = [] := pushedBy_of_first_fails hfirst
      rw [headerStep_eq, headerFilter_of_fail hreach hok] at hstep
      obtain rfl := Option.some.inj hstep
      refine h.keep hadd ?_ rfl rfl
      rw [hadd]
      exact List.append_nil _
  · obtain ⟨hheaders, hlength, hflag⟩ := @headerFilter_of_not_reaches lcf _ _ hreach
    rw [headerStep_eq] at hstep
    obtain rfl := Option.some.inj hstep
    exact h.keep (if_neg hreach) hheaders hlength hflag

/-- A call that stops midway returns its own error with a longer header list. -/
theorem not_appliedOnce_of_stopsMidway {r₀ : FilterRequest} {s t : HeaderRun}
    (hmid : StopsMidway lcf al s.r) (hstep : headerStep lcf s al = some t) :
    ¬ AppliedOnce lcf r₀ t := by
  rw [headerStep_eq] at hstep
  obtain rfl := Option.some.inj hstep
  intro honce
  have herror := honce.error
  rw [headerFilter_of_fail hmid.1 hmid.2.2] at herror
  have hnil := List.append_right_eq_self.mp (herror rfl)
  exact pushedBy_of_stopsMidway hmid (List.map_eq_nil_iff.mp hnil)

/-- **At most once.** Along a run of calls every configured entry has at most one copy in the
header list, the footer is counted at most once and a call that failed has added nothing, if and
only if no call stops in the loop behind a push that succeeded. -/
theorem header_filter_once_iff (lcf : NgxHttpNdgFilterLocConf) (r : FilterRequest)
    (calls : List HeaderFilterAllocs) :
    Along (headerStep lcf) (AppliedOnce lcf r) (.start r) calls ↔
      Meets (headerStep lcf) (fun s al => ¬ StopsMidway lcf al s.r) (.start r) calls := by
  have hstart : OnceInv lcf r (.start r) :=
    ⟨⟨(List.append_nil _).symm, List.nodup_nil, .inl rfl, fun _ => rfl⟩, fun _ => ⟨rfl, rfl⟩⟩
  refine along_iff_meets ?_ (fun s h => h.once) ?_ hstart calls
  · intro s al t h hmid hstep
    exact h.step hmid hstep
  · intro s al t _ hmid hstep
    exact not_appliedOnce_of_stopsMidway (not_not.mp hmid) hstep

/-- Two configured headers and no footer. -/
def twoHeaders : NgxHttpNdgFilterLocConf where
  headers := some [⟨⟨1, 0⟩, ⟨1, 1⟩⟩, ⟨⟨1, 2⟩, ⟨1, 3⟩⟩]
  footer := ⟨0, 0⟩

/-- The second `ngx_list_push` fails, and the filter is called again: two copies of the first
header. -/
theorem header_filter_twice :
    ¬ Along (headerStep twoHeaders) (AppliedOnce twoHeaders (.fresh [])) (.start (.fresh []))
      [⟨true, fun i => i == 0⟩, .ok] := by
  intro h
  have hfirst := h.2 _ rfl
  have hsecond := hfirst.2 _ rfl
  have hcopies := AppliedOnce.copies hsecond
  revert hcopies
  decide

end NgxNdg
