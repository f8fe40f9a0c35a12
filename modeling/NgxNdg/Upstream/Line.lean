import NgxNdg.Lib.FirstMark
import NgxNdg.Lib.Run
import NgxNdg.Upstream.Model

/-!
# Reading the line

Until the line feed arrives `process_header` leaves the buffer alone; the read that brings it
cuts the buffer behind the line. What a later read brings is not looked at any more, so the
bytes delivered are the line exactly when nothing follows the read that ends it.

## Main definitions

- `lineOf`: the bytes before the first line feed
- `Reading`, `HeaderRead`: a reader before and behind the line feed
- `headerReads`, `laterReads`: the reads up to the one with the line feed, and the others
-/

namespace NgxNdg

open FirstMark Memory Transition

/-- The bytes before the first line feed. -/
def lineOf (bytes : List UInt8) : List UInt8 := bytes.takeWhile fun b => !(b == lf)

theorem unmarked_lf_iff {bytes : List UInt8} : Unmarked (· == lf) bytes ↔ lf ∉ bytes := by
  constructor
  · intro h hmem
    have hfalse := h lf hmem
    simp at hfalse
  · intro h b hb
    have hne : b ≠ lf := fun heq => h (heq ▸ hb)
    simpa using hne

theorem lineOf_append_lf {line : List UInt8} (h : lf ∉ line) (rest : List UInt8) :
    lineOf (line ++ lf :: rest) = line :=
  takeWhile_split (unmarked_lf_iff.mpr h) (beq_self_eq_true lf)

/-- A list with a line feed splits behind its line. -/
theorem exists_lineOf_split {bytes : List UInt8} (h : lf ∈ bytes) :
    ∃ rest, bytes = lineOf bytes ++ lf :: rest ∧ lf ∉ lineOf bytes := by
  obtain hnone | ⟨line, b, rest, hsplit, hline, hb⟩ := unmarked_or_split (· == lf) bytes
  · exact absurd h (unmarked_lf_iff.mp hnone)
  · obtain rfl : b = lf := beq_iff_eq.mp hb
    have hlf : lf ∉ line := unmarked_lf_iff.mp hline
    have heq : lineOf bytes = line := by rw [hsplit, lineOf_append_lf hlf]
    exact ⟨rest, by rw [heq, hsplit], heq ▸ hlf⟩

/-- What comes behind a line feed does not change the line. -/
theorem lineOf_append_of_mem {bytes : List UInt8} (h : lf ∈ bytes) (more : List UInt8) :
    lineOf (bytes ++ more) = lineOf bytes := by
  obtain ⟨rest, hsplit, hlf⟩ := exists_lineOf_split h
  calc lineOf (bytes ++ more) = lineOf (lineOf bytes ++ lf :: (rest ++ more)) := by
        rw [← List.cons_append, ← List.append_assoc, ← hsplit]
    _ = lineOf bytes := lineOf_append_lf hlf _

variable {st : Store} {u : NgxHttpUpstream}

theorem processHeader_of_not_mem (htemp : u.buffer.temporary) (h : lf ∉ u.buffer.bytes st) :
    ngxHttpNdgUpstreamProcessHeader st u = (u, ngxAgain) := by
  rw [NgxBuf.bytes_of_temporary st htemp, ← scan_eq_none_iff] at h
  simp only [ngxHttpNdgUpstreamProcessHeader, ngxStrlchr, h]

theorem processHeader_of_mem (htemp : u.buffer.temporary) (h : lf ∈ u.buffer.bytes st) :
    ∃ u', ngxHttpNdgUpstreamProcessHeader st u = (u', ngxOk) ∧
      u'.buffer.bytes st = lineOf (u.buffer.bytes st) ∧
      u'.contentLengthN = (lineOf (u.buffer.bytes st)).length ∧
      u'.inputFilter = u.inputFilter := by
  rw [NgxBuf.bytes_of_temporary st htemp] at h ⊢
  cases hscan : scan st.mem lf u.buffer.pos u.buffer.last with
  | none => exact absurd h (scan_eq_none_iff.mp hscan)
  | some p =>
    obtain ⟨hle, _, hsplit, hfirst⟩ := scan_eq_some hscan
    have hline : lineOf (cells st.mem u.buffer.pos u.buffer.last) =
        cells st.mem u.buffer.pos p := by
      rw [hsplit, lineOf_append_lf hfirst]
    refine ⟨{ u with
      contentLengthN := (p : ℤ) - u.buffer.pos
      statusN := ngxHttpOk
      stateStatus := ngxHttpOk
      buffer := { u.buffer with last := p } }, ?_, ?_, ?_, rfl⟩
    · simp only [ngxHttpNdgUpstreamProcessHeader, ngxStrlchr, hscan]
    · rw [hline]
      exact NgxBuf.bytes_of_temporary st htemp
    · rw [hline, length_cells]
      show (p : ℤ) - u.buffer.pos = ((p - u.buffer.pos : ℕ) : ℤ)
      omega

/-- The call found no line feed and touched nothing. -/
def HeaderCall.Again (c : HeaderCall) : Prop := c.rc = ngxAgain ∧ c.exit = c.entry

/-- The reader has read `got`, without a line feed, into its buffer of `size` bytes. -/
structure Reading (size : ℕ) (got : List UInt8) (r : UpstreamReader) : Prop where
  waiting : r.headerDone = false
  temporary : r.u.buffer.temporary = true
  pos_le_last : r.u.buffer.pos ≤ r.u.buffer.last
  room : r.u.buffer.bufEnd = r.u.buffer.pos + size
  bytes : r.u.buffer.bytes r.st = got
  no_lf : lf ∉ got
  delivered : r.delivered = []
  no_filter : r.u.inputFilter = none
  again : ∀ c ∈ r.calls, c.Again

/-- The reader has found `line`, in the call of `process_header` it made last. -/
structure HeaderRead (line : List UInt8) (r : UpstreamReader) : Prop where
  done : r.headerDone = true
  bytes : r.u.buffer.bytes r.st = line
  announced : r.u.contentLengthN = line.length
  no_filter : r.u.inputFilter = none
  ok : ∃ c cs, r.calls = c :: cs ∧ c.rc = ngxOk ∧ ∀ c ∈ cs, HeaderCall.Again c

variable {size : ℕ} {got line chunk : List UInt8} {r : UpstreamReader}

/-- The buffer behind a read holds what was there and the bytes of the read. -/
theorem Reading.read_bytes (h : Reading size got r) (chunk : List UInt8) :
    (r.readUpstream chunk).buffer.bytes (r.readStore chunk) = got ++ chunk := by
  have hgot := h.bytes
  rw [NgxBuf.bytes_of_temporary _ h.temporary] at hgot
  have hbytes : (r.readUpstream chunk).buffer.bytes (r.readStore chunk) =
      cells (fill r.st.mem r.u.buffer.last chunk) r.u.buffer.pos
        (r.u.buffer.last + chunk.length) :=
    NgxBuf.bytes_of_temporary _ h.temporary
  rw [hbytes, cells_fill_append chunk h.pos_le_last, hgot]

/-- There is room for the bytes of a read when they fit behind what was read before. -/
theorem Reading.has_room (h : Reading size got r) (hfit : (got ++ chunk).length ≤ size) :
    ¬ r.u.buffer.bufEnd < r.u.buffer.last + chunk.length := by
  have hlen : got.length = r.u.buffer.last - r.u.buffer.pos := by
    rw [← h.bytes, NgxBuf.bytes_of_temporary _ h.temporary, length_cells]
  have hle := h.pos_le_last
  have hroom := h.room
  rw [List.length_append] at hfit
  omega

/-- A read without a line feed goes on waiting. -/
theorem Reading.recv_again (h : Reading size got r) (hfit : (got ++ chunk).length ≤ size)
    (hlf : lf ∉ chunk) : ∃ t, r.recv chunk = some t ∧ Reading size (got ++ chunk) t := by
  have hno : lf ∉ got ++ chunk := by
    rw [List.mem_append]
    exact not_or.mpr ⟨h.no_lf, hlf⟩
  have hcall : ngxHttpNdgUpstreamProcessHeader (r.readStore chunk) (r.readUpstream chunk) =
      (r.readUpstream chunk, ngxAgain) :=
    processHeader_of_not_mem h.temporary (h.read_bytes chunk ▸ hno)
  refine ⟨{ r with
    st := r.readStore chunk
    u := r.readUpstream chunk
    calls := ⟨r.readUpstream chunk, r.readUpstream chunk, ngxAgain⟩ :: r.calls }, ?_, ?_⟩
  · simp only [UpstreamReader.recv, h.waiting, Bool.false_eq_true, if_false,
      if_neg (h.has_room hfit), hcall]
    rfl
  · exact
      { waiting := h.waiting
        temporary := h.temporary
        pos_le_last := h.pos_le_last.trans (Nat.le_add_right _ _)
        room := h.room
        bytes := h.read_bytes chunk
        no_lf := hno
        delivered := h.delivered
        no_filter := h.no_filter
        again := List.forall_mem_cons.mpr ⟨⟨rfl, rfl⟩, h.again⟩ }

/-- The read with the line feed ends the header, and delivers the line. -/
theorem Reading.recv_ok (h : Reading size got r) (hfit : (got ++ chunk).length ≤ size)
    (hlf : lf ∈ chunk) : ∃ t, r.recv chunk = some t ∧ HeaderRead (lineOf (got ++ chunk)) t ∧
      t.delivered = lineOf (got ++ chunk) := by
  have hmem : lf ∈ (r.readUpstream chunk).buffer.bytes (r.readStore chunk) := by
    rw [h.read_bytes chunk]
    exact List.mem_append_right got hlf
  have htemp : (r.readUpstream chunk).buffer.temporary = true := h.temporary
  obtain ⟨u', hcall, hbytes, hlength, hfilter⟩ := processHeader_of_mem htemp hmem
  rw [h.read_bytes chunk] at hbytes hlength
  have hnone : u'.inputFilter = none := hfilter.trans h.no_filter
  refine ⟨{ r with
    st := r.readStore chunk
    u := u'
    headerDone := true
    delivered := u'.filtered (u'.buffer.bytes (r.readStore chunk))
    calls := ⟨r.readUpstream chunk, u', ngxOk⟩ :: r.calls }, ?_, ?_, ?_⟩
  · simp only [UpstreamReader.recv, h.waiting, Bool.false_eq_true, if_false,
      if_neg (h.has_room hfit), hcall]
    rfl
  · exact
      { done := rfl
        bytes := hbytes
        announced := hlength
        no_filter := hnone
        ok := ⟨_, _, rfl, rfl, h.again⟩ }
  · simp only [NgxHttpUpstream.filtered, hnone, Option.elim_none]
    exact hbytes

/-- Every later read is delivered as it comes. -/
theorem HeaderRead.recv (h : HeaderRead line r) (chunk : List UInt8) :
    r.recv chunk = some { r with delivered := r.delivered ++ chunk } := by
  simp only [UpstreamReader.recv, h.done, if_true, NgxHttpUpstream.filtered, h.no_filter,
    Option.elim_none]

theorem Reading.init (st : Store) (start size : ℕ) (hu : u.inputFilter = none) :
    Reading size [] (.init st u start size) where
  waiting := rfl
  temporary := rfl
  pos_le_last := le_rfl
  room := rfl
  bytes := (NgxBuf.bytes_of_temporary st rfl).trans (cells_self _ _)
  no_lf := List.not_mem_nil
  delivered := rfl
  no_filter := hu
  again := fun _ hc => nomatch hc

theorem Reading.exec_again (h : Reading size got r) {reads : List (List UInt8)}
    (hfit : (got ++ reads.flatten).length ≤ size) (hlf : lf ∉ reads.flatten) :
    ∃ t, exec UpstreamReader.recv r reads = some t ∧ Reading size (got ++ reads.flatten) t := by
  induction reads generalizing got r with
  | nil => exact ⟨r, rfl, by simpa using h⟩
  | cons chunk reads ih =>
    rw [List.flatten_cons, List.mem_append, not_or] at hlf
    rw [List.flatten_cons, ← List.append_assoc] at hfit ⊢
    have hfirst : (got ++ chunk).length ≤ size := by
      rw [List.length_append] at hfit
      omega
    obtain ⟨s, hs, hreading⟩ := h.recv_again hfirst hlf.1
    obtain ⟨t, ht, hlast⟩ := ih hreading hfit hlf.2
    refine ⟨t, ?_, hlast⟩
    rw [exec, hs]
    exact ht

theorem HeaderRead.exec (h : HeaderRead line r) (reads : List (List UInt8)) :
    exec UpstreamReader.recv r reads =
      some { r with delivered := r.delivered ++ reads.flatten } := by
  induction reads generalizing r with
  | nil => simp [Transition.exec]
  | cons chunk reads ih =>
    have hnext : HeaderRead line { r with delivered := r.delivered ++ chunk } :=
      ⟨h.done, h.bytes, h.announced, h.no_filter, h.ok⟩
    rw [Transition.exec, h.recv, Option.bind_some, ih hnext, List.flatten_cons,
      ← List.append_assoc]

/-- The reads up to the first one with a line feed. -/
def headerReads (reads : List (List UInt8)) : List (List UInt8) :=
  (reads.takeWhile fun chunk => !chunk.contains lf) ++
    (reads.dropWhile fun chunk => !chunk.contains lf).take 1

/-- The reads behind the first one with a line feed. -/
def laterReads (reads : List (List UInt8)) : List (List UInt8) :=
  (reads.dropWhile fun chunk => !chunk.contains lf).drop 1

/-- Reads with a line feed split at the first one that has it. -/
theorem exists_header_read {reads : List (List UInt8)} (h : lf ∈ reads.flatten) :
    ∃ pre chunk, reads = pre ++ chunk :: laterReads reads ∧ lf ∉ pre.flatten ∧ lf ∈ chunk ∧
      (headerReads reads).flatten = pre.flatten ++ chunk := by
  rcases unmarked_or_split (fun chunk : List UInt8 => chunk.contains lf) reads with
    hnone | ⟨pre, chunk, post, hsplit, hpre, hchunk⟩
  · obtain ⟨chunk, hmem, hlf⟩ := List.mem_flatten.mp h
    have hfalse := hnone chunk hmem
    simp [hlf] at hfalse
  · have hlater : laterReads reads = post := by
      rw [laterReads, hsplit, dropWhile_split hpre hchunk]
      rfl
    have hheader : headerReads reads = pre ++ [chunk] := by
      rw [headerReads, hsplit, dropWhile_split hpre hchunk, takeWhile_split hpre hchunk]
      rfl
    refine ⟨pre, chunk, by rw [hlater, hsplit], ?_, by simpa using hchunk, by simp [hheader]⟩
    intro hlf
    obtain ⟨c, hc, hlfc⟩ := List.mem_flatten.mp hlf
    have hfalse := hpre c hc
    simp [hlfc] at hfalse

/-- A whole run of the reader: the line, and then every byte of the later reads. -/
theorem exec_recv {reads : List (List UInt8)} (st : Store) (start : ℕ)
    (hu : u.inputFilter = none) (hlf : lf ∈ reads.flatten)
    (hfit : (headerReads reads).flatten.length ≤ size) :
    ∃ t, exec UpstreamReader.recv (.init st u start size) reads = some t ∧
      t.delivered = lineOf reads.flatten ++ (laterReads reads).flatten ∧
      HeaderRead (lineOf reads.flatten) t := by
  obtain ⟨pre, chunk, hsplit, hpre, hchunk, hheader⟩ := exists_header_read hlf
  rw [hheader] at hfit
  have hline : lineOf reads.flatten = lineOf (pre.flatten ++ chunk) := by
    rw [hsplit, List.flatten_append, List.flatten_cons, ← List.append_assoc]
    exact lineOf_append_of_mem (List.mem_append_right _ hchunk) _
  have hbefore : (([] : List UInt8) ++ pre.flatten).length ≤ size := by
    rw [List.length_append] at hfit
    rw [List.nil_append]
    omega
  obtain ⟨s, hs, hreading⟩ := (Reading.init st start size hu).exec_again hbefore hpre
  rw [List.nil_append] at hreading
  obtain ⟨t, ht, hdone, hdelivered⟩ := hreading.recv_ok hfit hchunk
  refine ⟨{ t with delivered := t.delivered ++ (laterReads reads).flatten }, ?_, ?_, ?_⟩
  · rw [hsplit, exec_append, hs, Option.bind_some, Transition.exec, ht, Option.bind_some,
      ← hsplit]
    exact hdone.exec _
  · rw [hline, ← hdelivered]
  · rw [hline]
    exact ⟨hdone.done, hdone.bytes, hdone.announced, hdone.no_filter, hdone.ok⟩

/-- Until the line feed is there the reader waits. -/
theorem exec_prefix {reads pre : List (List UInt8)} (st : Store) (start : ℕ)
    (hu : u.inputFilter = none) (hfit : reads.flatten.length ≤ size) (hpre : pre <+: reads)
    (hlf : lf ∉ pre.flatten) :
    ∃ t, exec UpstreamReader.recv (.init st u start size) pre = some t ∧
      Reading size pre.flatten t := by
  obtain ⟨post, rfl⟩ := hpre
  rw [List.flatten_append, List.length_append] at hfit
  have hlen : (([] : List UInt8) ++ pre.flatten).length ≤ size := by
    rw [List.nil_append]
    omega
  obtain ⟨t, ht, hreading⟩ := (Reading.init st start size hu).exec_again hlen hlf
  rw [List.nil_append] at hreading
  exact ⟨t, ht, hreading⟩

/-- Nothing is read behind a line feed that comes last. -/
theorem laterReads_of_line {line : List UInt8} {reads : List (List UInt8)} (hline : lf ∉ line)
    (hreads : reads.flatten = line ++ [lf]) : (laterReads reads).flatten = [] := by
  have hlf : lf ∈ reads.flatten := hreads ▸ List.mem_append_right line List.mem_cons_self
  obtain ⟨pre, chunk, hsplit, -, hchunk, -⟩ := exists_header_read hlf
  obtain hnil | ⟨later, b, hlater⟩ := List.eq_nil_or_concat (laterReads reads).flatten
  · exact hnil
  · rw [hsplit, List.flatten_append, List.flatten_cons, hlater, List.concat_eq_append,
      ← List.append_assoc, ← List.append_assoc] at hreads
    have hmem : lf ∈ line := by
      rw [← (List.append_inj' hreads rfl).1]
      exact List.mem_append_left later (List.mem_append_right pre.flatten hchunk)
    exact absurd hmem hline

/-- A line that ends with the last byte is all that is delivered. -/
theorem exec_line {line : List UInt8} {reads : List (List UInt8)} (st : Store) (start : ℕ)
    (hu : u.inputFilter = none) (hline : lf ∉ line) (hfit : reads.flatten.length ≤ size)
    (hreads : reads.flatten = line ++ [lf]) :
    ∃ t, exec UpstreamReader.recv (.init st u start size) reads = some t ∧ HeaderRead line t ∧
      t.delivered = line := by
  have hlf : lf ∈ reads.flatten := hreads ▸ List.mem_append_right line List.mem_cons_self
  have hheader : (headerReads reads).flatten.length ≤ size := by
    obtain ⟨pre, chunk, hsplit, -, -, hheader⟩ := exists_header_read hlf
    rw [hsplit, List.flatten_append, List.flatten_cons, List.length_append,
      List.length_append] at hfit
    rw [hheader, List.length_append]
    omega
  obtain ⟨t, ht, hdelivered, hread⟩ := exec_recv st start hu hlf hheader
  rw [hreads, lineOf_append_lf hline] at hdelivered hread
  rw [laterReads_of_line hline hreads, List.append_nil] at hdelivered
  exact ⟨t, ht, hread, hdelivered⟩

/-- An upstream that comes out of the content handler has no input filter. -/
theorem upstreamHandler_inputFilter {methodGet create : Bool} {discardBody count : ℤ}
    (h : (ngxHttpNdgUpstreamHandler methodGet discardBody create count).1 = some u) :
    u.inputFilter = none := by
  unfold ngxHttpNdgUpstreamHandler at h
  split at h
  · cases h
  split at h
  · cases h
  split at h
  · cases h
  · obtain rfl := Option.some.inj h
    rfl

/-- **The body and the announced length.** When the line feed is within the buffer, the bytes
delivered are the line and as many as were announced, exactly when no byte comes in a read
behind the one that brings the line feed. -/
theorem body_eq_line_iff (st : Store) (start size : ℕ) (reads : List (List UInt8))
    (methodGet create : Bool) (discardBody count : ℤ)
    (hu : (ngxHttpNdgUpstreamHandler methodGet discardBody create count).1 = some u)
    (hlf : lf ∈ reads.flatten) (hfit : (headerReads reads).flatten.length ≤ size) :
    ∃ t, exec UpstreamReader.recv (.init st u start size) reads = some t ∧
      ((t.delivered = lineOf reads.flatten ∧ (t.delivered.length : ℤ) = t.u.contentLengthN) ↔
        (laterReads reads).flatten = []) := by
  obtain ⟨t, ht, hdelivered, hread⟩ := exec_recv st start (upstreamHandler_inputFilter hu) hlf hfit
  refine ⟨t, ht, ?_⟩
  rw [hdelivered, hread.announced]
  constructor
  · rintro ⟨hline, _⟩
    exact List.append_right_eq_self.mp hline
  · intro hlater
    rw [hlater, List.append_nil]
    exact ⟨rfl, rfl⟩

/-- The line `hi` in two reads. -/
theorem body_eq_line_hi :
    ∃ t, exec UpstreamReader.recv (.init ⟨fun _ => 0, fun _ _ => 0⟩ ngxHttpUpstreamCreate 0 64)
        [[104], [105, 10]] = some t ∧
      t.delivered = [104, 105] ∧ (t.delivered.length : ℤ) = t.u.contentLengthN := by
  obtain ⟨t, ht, hiff⟩ := body_eq_line_iff ⟨fun _ => 0, fun _ _ => 0⟩ 0 64 [[104], [105, 10]]
    true true ngxOk 1 rfl (by decide) (by decide)
  exact ⟨t, ht, hiff.mpr rfl⟩

/-- One byte behind the line, in a read of its own: it is delivered past the announced
length. -/
theorem body_ne_line_of_late_byte :
    ∃ t, exec UpstreamReader.recv (.init ⟨fun _ => 0, fun _ _ => 0⟩ ngxHttpUpstreamCreate 0 64)
        [[97, 10], [98]] = some t ∧
      ¬ (t.delivered = lineOf [97, 10, 98] ∧ (t.delivered.length : ℤ) = t.u.contentLengthN) := by
  have hrun : ∃ t, exec UpstreamReader.recv
      (.init ⟨fun _ => 0, fun _ _ => 0⟩ ngxHttpUpstreamCreate 0 64) [[97, 10], [98]] = some t ∧
        t.delivered = [97, 98] := ⟨_, rfl, rfl⟩
  obtain ⟨t, ht, hdelivered⟩ := hrun
  refine ⟨t, ht, fun h => ?_⟩
  rw [hdelivered] at h
  exact absurd h.1 (by decide)

end NgxNdg
