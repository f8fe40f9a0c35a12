import NgxNdg.Conf.Inheritance
import NgxNdg.Lib.Decimal
import NgxNdg.StreamTime.Answer
import NgxNdg.Upstream.Line

/-!
# The time as a line

The write handler formats the time into a buffer of 20 bytes, and `ngx_slprintf` cuts what does
not fit. The times below `2 ^ 63` have 19 digits at most, so that the line feed is never cut off:
the upstream module reads the digits back, however the line is split.

## Main definitions

- `timeBuf`: the buffer with the line
-/

namespace NgxNdg

open Decimal Memory ScopeTree Transition

theorem ngxSprintfNum_isNumeral (n : ℕ) : IsNumeral n (ngxSprintfNum n) := by
  unfold ngxSprintfNum
  split
  · next hn =>
    subst hn
    exact isNumeral_zero
  · next hn => exact isNumeral_digits hn

/-- A number with at most `k` digits is formatted in `k` bytes. -/
theorem length_ngxSprintfNum_le {n k : ℕ} (hk : 0 < k) (h : n < 10 ^ k) :
    (ngxSprintfNum n).length ≤ k := by
  unfold ngxSprintfNum
  split
  · exact hk
  · rw [List.length_map, List.length_reverse]
    exact (Nat.digits_length_le_iff (by decide) n).mpr h

theorem lf_not_mem_numeral {n : ℕ} {text : List UInt8} (h : IsNumeral n text) : lf ∉ text := by
  intro hmem
  exact absurd (h.digit lf hmem).1 (by decide)

/-- A time that is not negative is formatted as its digits and the line feed. -/
theorem timeLine_of_nonneg {time : ℤ} (h : 0 ≤ time) :
    timeLine time = ngxSprintfNum time.toNat ++ [lf] := by
  have habs : time.natAbs = time.toNat := by omega
  rw [timeLine, if_neg (not_lt.mpr h), List.nil_append, habs]
  rfl

/-- The line of a time below `2 ^ 63` fits into the buffer. -/
theorem length_timeLine_le {time : ℤ} (h : 0 ≤ time) (hlt : time < 2 ^ 63) :
    (timeLine time).length ≤ 20 := by
  have hdigits : time.toNat < 10 ^ 19 := by omega
  have hlength := length_ngxSprintfNum_le (by decide) hdigits
  rw [timeLine_of_nonneg h, List.length_append, List.length_singleton]
  omega

variable {m : NgxEventModule} {o : TimeWriteOutcomes} {s : TimeSession}

/-- `ngx_slprintf` of the line into the new buffer: the pool, and the end of what was written. -/
def timePrint (o : TimeWriteOutcomes) (pool : NgxPool) : NgxPool × ℕ :=
  let (pool, b) := ngxCreateTempBuf pool 20
  ngxSlprintf pool b.pos b.bufEnd (timeLine o.time)

/-- The buffer with the line. -/
def timeBuf (o : TimeWriteOutcomes) (pool : NgxPool) : NgxBuf :=
  { (ngxCreateTempBuf pool 20).2 with
    last := (timePrint o pool).2
    lastBuf := true
    lastInChain := true }

/-- What the write handler sends, when it gets as far as the filter. -/
theorem timeWriteHandler_sends (h : TimeSends s.write o) :
    ngxStreamNdgTimeWriteHandler m o s = TimeSession.finalize
      { s with
        pool := (timePrint o s.pool).1
        sent := ([timeBuf o s.pool], o.topFilter) :: s.sent } o.topFilter.rc := by
  obtain ⟨htimedout, hready, hbuf, hlink⟩ := h
  simp only [ngxStreamNdgTimeWriteHandler, htimedout, hready, hbuf, hlink]
  rfl

/-- The bytes of the buffer are the line, when it fits. -/
theorem timeBuf_bytes (pool : NgxPool) (hfit : (timeLine o.time).length ≤ 20) :
    (timeBuf o pool).bytes (timePrint o pool).1.toStore = timeLine o.time := by
  have hroom : pool.brk + 20 - pool.brk = 20 := Nat.add_sub_cancel_left _ _
  rw [NgxBuf.bytes_of_temporary _ rfl]
  show cells (fill pool.mem pool.brk ((timeLine o.time).take (pool.brk + 20 - pool.brk))) pool.brk
    (pool.brk + min (timeLine o.time).length (pool.brk + 20 - pool.brk)) = _
  rw [hroom, List.take_of_length_le hfit, Nat.min_eq_left hfit, cells_fill_self]

/-- **The time line.** The buffer of every line that is sent holds all the digits of the time and
the line feed. In every location the upstream module reads it, in any pieces: it waits until the
line feed is there and then has the digits and their number. -/
theorem time_line_readable {κ : Type*} {locations : Scope (LocDirectives κ)} {p : List ℕ}
    {conf : LocConfs κ} (hconf : (mergeLocations locations).label? p = some conf)
    {u : NgxHttpUpstream} {methodGet create : Bool} {discardBody count : ℤ}
    (hu : (ngxHttpNdgUpstreamHandler methodGet discardBody create count).1 = some u)
    (m : NgxEventModule) (hsends : TimeSends s.write o)
    (htime : 0 ≤ o.time) (hlt : o.time < 2 ^ 63) (st : Store) (start : ℕ) :
    ∃ b digits, (ngxStreamNdgTimeWriteHandler m o s).sent = ([b], o.topFilter) :: s.sent ∧
      b.bufEnd = b.start + 20 ∧ IsNumeral o.time.toNat digits ∧
      b.bytes (ngxStreamNdgTimeWriteHandler m o s).pool.toStore = digits ++ [lf] ∧
      ∀ reads, reads.flatten = b.bytes (ngxStreamNdgTimeWriteHandler m o s).pool.toStore →
        (∀ pre, pre <+: reads → lf ∉ pre.flatten → ∃ r,
          exec UpstreamReader.recv (.init st u start conf.upstream.bufferSize.toNat) pre = some r ∧
            r.headerDone = false ∧ ∀ c ∈ r.calls, c.Again) ∧
        ∃ r, exec UpstreamReader.recv (.init st u start conf.upstream.bufferSize.toNat) reads =
            some r ∧ HeaderRead digits r ∧ r.delivered = digits := by
  have hnumeral := ngxSprintfNum_isNumeral o.time.toNat
  have hfit := length_timeLine_le htime hlt
  have hbytes := timeBuf_bytes s.pool hfit
  have hsize : conf.upstream.bufferSize.toNat = 4096 := by
    rw [(upstream_numbers hconf).2.2.2]
    rfl
  rw [timeWriteHandler_sends hsends, hsize]
  refine ⟨timeBuf o s.pool, ngxSprintfNum o.time.toNat, rfl, rfl, hnumeral, ?_, ?_⟩
  · exact hbytes.trans (timeLine_of_nonneg htime)
  · intro reads hreads
    have hline : reads.flatten = timeLine o.time := hreads.trans hbytes
    have hroom : reads.flatten.length ≤ 4096 := by
      rw [hline]
      omega
    constructor
    · intro pre hpre hlf
      obtain ⟨r, hr, hreading⟩ :=
        exec_prefix st start (upstreamHandler_inputFilter hu) hroom hpre hlf
      exact ⟨r, hr, hreading.waiting, hreading.again⟩
    · rw [timeLine_of_nonneg htime] at hline
      exact exec_line st start (upstreamHandler_inputFilter hu) (lf_not_mem_numeral hnumeral) hroom
        hline

/-- A session whose connection is ready for the line. -/
def readyTimeSession : TimeSession :=
  .init ⟨⟨fun _ => 0, fun _ _ => 0⟩, 64⟩ ⟨.session, false, none, false, false⟩
    ⟨.session, false, none, true, false⟩

/-- The largest time, read in a location without directives. -/
theorem time_line_readable_max : ∃ b digits,
    (ngxStreamNdgTimeWriteHandler ngxEpollModule ⟨true, true, true, .ok, 2 ^ 63 - 1⟩
      readyTimeSession).sent = [([b], .ok)] ∧
    IsNumeral 9223372036854775807 digits ∧
    ∃ r, exec UpstreamReader.recv
        (.init ⟨fun _ => 0, fun _ _ => 0⟩ ngxHttpUpstreamCreate 0 4096) [digits, [], [lf]] =
          some r ∧ HeaderRead digits r := by
  have hconf : (mergeLocations (.node (LocDirectives.empty : LocDirectives ℕ) [])).label? [] =
      some (.merge .create (.parse .empty)) := rfl
  have hu : (ngxHttpNdgUpstreamHandler true ngxOk true 1).1 = some ngxHttpUpstreamCreate := rfl
  have hsends : TimeSends readyTimeSession.write ⟨true, true, true, .ok, 2 ^ 63 - 1⟩ :=
    ⟨rfl, rfl, rfl, rfl⟩
  obtain ⟨b, digits, hsent, -, hnumeral, hbytes, hread⟩ := time_line_readable hconf hu
    ngxEpollModule hsends (by decide) (by decide) ⟨fun _ => 0, fun _ _ => 0⟩ 0
  obtain ⟨-, r, hr, hheader, -⟩ := hread [digits, [], [lf]] (by rw [hbytes]; simp)
  exact ⟨b, digits, hsent, hnumeral, r, hr, hheader⟩

end NgxNdg
