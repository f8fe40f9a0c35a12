import NgxNdg.StreamEcho.Model

/-!
# What a session echoes

Every link handed to the filters is a copy in memory allocated after the preread buffer, so
neither later reads nor later copies touch it. The bytes of the links handed out and those
still in the preread buffer are together the bytes received, and a call of the handler that
succeeds leaves none in the buffer.

## Main definitions

- `SessionInv`: the preread buffer, the links handed out, and the bytes in them
-/

namespace NgxNdg

open Memory

/-- The bytes received and not handed out. -/
def EchoSession.pending (s : EchoSession) : List UInt8 :=
  s.buffer.elim [] fun b => b.bytes s.pool.toStore

/-- A preread buffer of `size` bytes below all the links handed out. -/
structure PrereadBuffer (size : ℕ) (pool : NgxPool) (handed : NgxChain) (b : NgxBuf) : Prop where
  temporary : b.temporary = true
  pos_le_last : b.pos ≤ b.last
  room : b.bufEnd = b.pos + size
  last_le_end : b.last ≤ b.bufEnd
  allocated : b.bufEnd ≤ pool.brk
  below : ∀ h ∈ handed, b.bufEnd ≤ h.pos

/-- Where the preread buffer and the links handed out lie. -/
structure SessionLayout (size : ℕ) (s : EchoSession) : Prop where
  buffer : ∀ b, s.buffer = some b → PrereadBuffer size s.pool s.handed b
  fresh : s.buffer = none → s.handed = []
  handed : ∀ h ∈ s.handed, h.temporary = true ∧ h.last ≤ s.pool.brk

structure SessionInv (size : ℕ) (s : EchoSession) : Prop where
  buffer : ∀ b, s.buffer = some b → PrereadBuffer size s.pool s.handed b
  fresh : s.buffer = none → s.handed = []
  handed : ∀ h ∈ s.handed, h.temporary = true ∧ h.last ≤ s.pool.brk
  echoed : chainBytes s.pool.toStore s.handed ++ s.pending = s.received

variable {size : ℕ} {s t : EchoSession} {o : EchoPrereadOutcomes}

theorem SessionInv.layout (h : SessionInv size s) : SessionLayout size s :=
  ⟨h.buffer, h.fresh, h.handed⟩

theorem SessionLayout.inv (h : SessionLayout size s)
    (hechoed : chainBytes s.pool.toStore s.handed ++ s.pending = s.received) :
    SessionInv size s :=
  ⟨h.buffer, h.fresh, h.handed, hechoed⟩

theorem SessionInv.init (size : ℕ) (pool : NgxPool) : SessionInv size (.init pool) where
  buffer := fun _ hb => nomatch hb
  fresh := fun _ => rfl
  handed := fun _ hh => nomatch hh
  echoed := rfl

theorem SessionLayout.prereadBuffer (h : SessionLayout size s) :
    ∃ pool b, s.prereadBuffer size = (pool, b) ∧ PrereadBuffer size pool s.handed b ∧
      pool.mem = s.pool.mem ∧ s.pool.brk ≤ pool.brk ∧ b.bytes pool.toStore = s.pending := by
  unfold EchoSession.prereadBuffer
  cases hb : s.buffer with
  | none =>
    refine ⟨_, _, rfl, ?_, rfl, Nat.le_add_right _ _, ?_⟩
    · exact
        { temporary := rfl
          pos_le_last := le_rfl
          room := rfl
          last_le_end := Nat.le_add_right _ _
          allocated := le_rfl
          below := by
            rw [h.fresh hb]
            exact fun _ hh => nomatch hh }
    · rw [EchoSession.pending, hb]
      exact (NgxBuf.bytes_of_temporary _ rfl).trans (cells_self _ _)
  | some b =>
    refine ⟨_, _, rfl, h.buffer b hb, rfl, le_rfl, ?_⟩
    rw [EchoSession.pending, hb]
    rfl

/-- A read puts its bytes behind the pending ones and changes no link handed out. -/
theorem SessionLayout.append (h : SessionLayout size s) {chunk : List UInt8}
    (happend : s.append size chunk = some t) :
    SessionLayout size t ∧ t.received = s.received ++ chunk ∧ t.handed = s.handed ∧
      (∀ link ∈ s.handed, link.bytes t.pool.toStore = link.bytes s.pool.toStore) ∧
      t.pending = s.pending ++ chunk := by
  obtain ⟨pool, b, hpre, hb, hmem, hbrk, hpending⟩ := h.prereadBuffer
  simp only [EchoSession.append, hpre] at happend
  split at happend
  · cases happend
  next hroom =>
  obtain rfl := Option.some.inj happend
  have hfit : b.last + chunk.length ≤ b.bufEnd := Nat.le_of_not_lt hroom
  refine ⟨⟨?_, ?_, ?_⟩, rfl, rfl, ?_, ?_⟩
  · intro b' hb'
    obtain rfl := Option.some.inj hb'
    exact
      { temporary := hb.temporary
        pos_le_last := hb.pos_le_last.trans (Nat.le_add_right _ _)
        room := hb.room
        last_le_end := hfit
        allocated := hb.allocated
        below := hb.below }
  · exact fun hnone => nomatch hnone
  · exact fun link hlink => ⟨(h.handed link hlink).1, (h.handed link hlink).2.trans hbrk⟩
  · intro link hlink
    refine NgxBuf.bytes_congr (h.handed link hlink).1 fun x hx _ => ?_
    have hbelow := hb.below link hlink
    show fill pool.mem b.last chunk x = s.pool.mem x
    rw [fill_of_ge (by omega), hmem]
  · have hold : cells pool.mem b.pos b.last = s.pending := by
      rw [← hpending, NgxBuf.bytes_of_temporary _ hb.temporary]
    rw [← hold, ← cells_fill_append chunk hb.pos_le_last]
    exact NgxBuf.bytes_of_temporary _ hb.temporary

theorem SessionInv.append (h : SessionInv size s) {chunk : List UInt8}
    (happend : s.append size chunk = some t) :
    SessionInv size t ∧ t.received = s.received ++ chunk := by
  obtain ⟨hlayout, hreceived, hhanded, hbytes, hpending⟩ := h.layout.append happend
  refine ⟨hlayout.inv ?_, hreceived⟩
  rw [hhanded, chainBytes_congr hbytes, hpending, hreceived, ← List.append_assoc, h.echoed]

/-- A call that succeeds hands out a copy of the preread buffer and empties it. -/
theorem prereadHandler_ok (pool : NgxPool) {cb : NgxBuf} (hbuf : o.buf = true)
    (hlink : o.link = true) (hfilter : o.topFilter ≠ ngxError) (htemp : cb.temporary = true) :
    ∃ pool' b, ngxStreamNdgEchoPrereadHandler true o pool (some cb) =
        (pool', some { cb with last := cb.pos }, [b], ngxAgain) ∧
      b.temporary = true ∧ b.pos = pool.brk ∧ b.last = pool'.brk ∧ pool.brk ≤ pool'.brk ∧
      b.bytes pool'.toStore = cb.bytes pool.toStore ∧
      ∀ x, x < pool.brk → pool'.mem x = pool.mem x := by
  have hsize : (ngxBufSize cb).toNat = cb.last - cb.pos := by
    simp only [ngxBufSize, ngxBufInMemory, htemp, Bool.true_or, if_true]
    omega
  refine ⟨(ngxCpymem (ngxCreateTempBuf pool (cb.last - cb.pos)).1 pool.brk cb.pos
      (cb.last - cb.pos)).1,
    { (ngxCreateTempBuf pool (cb.last - cb.pos)).2 with
      last := pool.brk + (cb.last - cb.pos) }, ?_, rfl, rfl, rfl, Nat.le_add_right _ _, ?_, ?_⟩
  · simp only [ngxStreamNdgEchoPrereadHandler, hbuf, hlink, if_neg hfilter, hsize]
    rfl
  · have hsrc : cells pool.mem cb.pos (cb.pos + (cb.last - cb.pos)) =
        cells pool.mem cb.pos cb.last := by
      rw [cells, cells, Nat.add_sub_cancel_left]
    rw [NgxBuf.bytes_of_temporary _ htemp, ← hsrc]
    exact (NgxBuf.bytes_of_temporary _ rfl).trans (cells_ngxCpymem _ _ _ _)
  · exact fun x hx => ngxCpymem_mem_of_lt _ _ _ hx

/-- However a call ends, it writes only into memory it allocates, and the preread buffer is as it
was or emptied; it is as it was when the call returns `NGX_ERROR`. -/
theorem prereadHandler_cases (o : EchoPrereadOutcomes) (pool : NgxPool) (cb : NgxBuf) :
    ∃ pool' cb' out rc, ngxStreamNdgEchoPrereadHandler true o pool (some cb) =
        (pool', some cb', out, rc) ∧
      pool.brk ≤ pool'.brk ∧ (∀ x, x < pool.brk → pool'.mem x = pool.mem x) ∧
      (∀ link ∈ out, link.temporary = true ∧ pool.brk ≤ link.pos ∧ link.last ≤ pool'.brk) ∧
      (rc = ngxError ∧ cb' = cb ∨ rc = ngxAgain ∧ cb' = { cb with last := cb.pos }) := by
  let n := (ngxBufSize cb).toNat
  have hbrk : pool.brk ≤ pool.brk + n := Nat.le_add_right _ _
  have hmem : ∀ x, x < pool.brk →
      (ngxCpymem (ngxCreateTempBuf pool n).1 pool.brk cb.pos n).1.mem x = pool.mem x :=
    fun x hx => ngxCpymem_mem_of_lt _ _ _ hx
  have hlink : ∀ link ∈ [{ (ngxCreateTempBuf pool n).2 with last := pool.brk + n }],
      link.temporary = true ∧ pool.brk ≤ link.pos ∧ link.last ≤ pool.brk + n := by
    intro link hmem
    obtain rfl := List.mem_singleton.mp hmem
    exact ⟨rfl, le_rfl, le_rfl⟩
  unfold ngxStreamNdgEchoPrereadHandler
  cases hbuf : o.buf with
  | false =>
    exact ⟨_, _, _, _, rfl, le_rfl, fun _ _ => rfl, (fun _ h => nomatch h), .inl ⟨rfl, rfl⟩⟩
  | true =>
    cases hl : o.link with
    | false => exact ⟨_, _, _, _, rfl, hbrk, hmem, (fun _ h => nomatch h), .inl ⟨rfl, rfl⟩⟩
    | true =>
      by_cases hfilter : o.topFilter = ngxError
      · simp only [Bool.not_true, Bool.false_eq_true, if_false, if_pos hfilter]
        exact ⟨_, _, _, _, rfl, hbrk, hmem, hlink, .inl ⟨rfl, rfl⟩⟩
      · simp only [Bool.not_true, Bool.false_eq_true, if_false, if_neg hfilter]
        exact ⟨_, _, _, _, rfl, hbrk, hmem, hlink, .inr ⟨rfl, rfl⟩⟩

/-- A call keeps the layout and the links handed out before it, whatever it ends with. -/
theorem SessionLayout.call (h : SessionLayout size s) (o : EchoPrereadOutcomes) :
    SessionLayout size (s.call true o) ∧ s.handed <+: (s.call true o).handed ∧
      ∀ link ∈ s.handed, link.bytes (s.call true o).pool.toStore = link.bytes s.pool.toStore := by
  cases hb : s.buffer with
  | none =>
    have hcall : s.call true o = { s with rc := ngxAgain } := by
      simp [EchoSession.call, ngxStreamNdgEchoPrereadHandler, hb]
    rw [hcall]
    exact ⟨⟨h.buffer, h.fresh, h.handed⟩, List.prefix_rfl, fun _ _ => rfl⟩
  | some cb =>
    have hcb := h.buffer cb hb
    obtain ⟨pool, cb', out, rc, hhandler, hbrk, hmem, hout, hcb'⟩ :=
      prereadHandler_cases o s.pool cb
    have hcall : s.call true o = { s with
        pool := pool
        buffer := some cb'
        handed := s.handed ++ out
        rc := rc } := by
      simp only [EchoSession.call, hb, hhandler]
    have hallocated := hcb.allocated
    have hbelow : ∀ link ∈ s.handed ++ out, cb.bufEnd ≤ link.pos := by
      intro link hmem'
      obtain hin | hnew := List.mem_append.mp hmem'
      · exact hcb.below link hin
      · exact hallocated.trans (hout link hnew).2.1
    rw [hcall]
    refine ⟨⟨?_, (fun hnone => nomatch hnone), ?_⟩, List.prefix_append _ _, ?_⟩
    · intro b hsome
      obtain rfl := Option.some.inj hsome
      obtain ⟨_, rfl⟩ | ⟨_, rfl⟩ := hcb'
      · exact
          { temporary := hcb.temporary
            pos_le_last := hcb.pos_le_last
            room := hcb.room
            last_le_end := hcb.last_le_end
            allocated := hallocated.trans hbrk
            below := hbelow }
      · exact
          { temporary := hcb.temporary
            pos_le_last := le_rfl
            room := hcb.room
            last_le_end := hcb.pos_le_last.trans hcb.last_le_end
            allocated := hallocated.trans hbrk
            below := hbelow }
    · intro link hmem'
      obtain hin | hnew := List.mem_append.mp hmem'
      · exact ⟨(h.handed link hin).1, (h.handed link hin).2.trans hbrk⟩
      · exact ⟨(hout link hnew).1, (hout link hnew).2.2⟩
    · intro link hin
      obtain ⟨htemp, hlast⟩ := h.handed link hin
      exact NgxBuf.bytes_congr htemp fun x _ hx => hmem x (by omega)

/-- Nothing is left in the preread buffer, and it has its full room again. -/
def EchoSession.Drained (s : EchoSession) : Prop := ∀ b, s.buffer = some b → b.last = b.pos

theorem EchoSession.Drained.pending_eq (hdrained : s.Drained) (h : SessionInv size s) :
    s.pending = [] := by
  unfold EchoSession.pending
  cases hb : s.buffer with
  | none => rfl
  | some b =>
    have hbytes := NgxBuf.bytes_of_temporary s.pool.toStore (h.buffer b hb).temporary
    rw [hdrained b hb, cells_self] at hbytes
    exact hbytes

/-- What the links handed out hold is all that was received. -/
theorem SessionInv.handed_bytes (h : SessionInv size s) (hdrained : s.Drained) :
    chainBytes s.pool.toStore s.handed = s.received := by
  have hechoed := h.echoed
  rwa [hdrained.pending_eq h, List.append_nil] at hechoed

theorem SessionInv.call (h : SessionInv size s) (hbuf : o.buf = true) (hlink : o.link = true)
    (hfilter : o.topFilter ≠ ngxError) :
    SessionInv size (s.call true o) ∧ (s.call true o).Drained ∧
      (s.call true o).received = s.received := by
  cases hb : s.buffer with
  | none =>
    have hcall : s.call true o = { s with rc := ngxAgain } := by
      simp [EchoSession.call, ngxStreamNdgEchoPrereadHandler, hb]
    rw [hcall]
    refine ⟨⟨h.buffer, h.fresh, h.handed, h.echoed⟩, ?_, rfl⟩
    intro b hsome
    rw [hb] at hsome
    cases hsome
  | some cb =>
    have hcb := h.buffer cb hb
    obtain ⟨pool, b, hhandler, htemp, hpos, hlast, hbrk, hbytes, hmem⟩ :=
      prereadHandler_ok s.pool hbuf hlink hfilter hcb.temporary
    have hcall : s.call true o = { s with
        pool := pool
        buffer := some { cb with last := cb.pos }
        handed := s.handed ++ [b]
        rc := ngxAgain } := by
      simp only [EchoSession.call, hb, hhandler]
    obtain ⟨hlayout, _, hold⟩ := h.layout.call o
    rw [hcall] at hlayout hold ⊢
    refine ⟨hlayout.inv ?_, ?_, rfl⟩
    · have hempty : NgxBuf.bytes pool.toStore { cb with last := cb.pos } = [] :=
        NgxBuf.bytes_of_size_zero _ (by simp [ngxBufSize, ngxBufInMemory, hcb.temporary])
      have hpending : s.pending = cb.bytes s.pool.toStore := by
        rw [EchoSession.pending, hb]
        rfl
      show chainBytes pool.toStore (s.handed ++ [b]) ++
        NgxBuf.bytes pool.toStore { cb with last := cb.pos } = s.received
      rw [hempty, List.append_nil, chainBytes_append, chainBytes_congr hold, chainBytes_cons,
        hbytes, chainBytes_nil, List.append_nil, ← hpending]
      exact h.echoed
    · intro b' hb'
      obtain rfl := Option.some.inj hb'
      rfl

/-- A read and the call behind it: all that was received is handed out. -/
theorem SessionInv.recv (h : SessionInv size s) {chunk : List UInt8} (hbuf : o.buf = true)
    (hlink : o.link = true) (hfilter : o.topFilter ≠ ngxError)
    (hrecv : s.recv true size chunk o = some t) :
    SessionInv size t ∧ t.Drained ∧ t.received = s.received ++ chunk := by
  obtain ⟨u, happend, rfl⟩ := Option.map_eq_some_iff.mp hrecv
  obtain ⟨hu, hreceived⟩ := h.append happend
  obtain ⟨ht, hdrained, hsame⟩ := hu.call hbuf hlink hfilter
  exact ⟨ht, hdrained, hsame.trans hreceived⟩

end NgxNdg
