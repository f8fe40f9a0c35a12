import NgxNdg.Core.Buf

/-!
# Allocation and copying

A pool is the store together with the address behind everything allocated so far, so that
what it hands out overlaps nothing older. That an allocation returned `NULL` is an outcome
the callers are given; the functions here are the successful allocations.
-/

namespace NgxNdg

open Memory

/-- `ngx_pool_t`: all the memory at `brk` and above is free. -/
structure NgxPool extends Store where
  brk : ℕ

/-- `ngx_create_temp_buf` when it succeeds. -/
def ngxCreateTempBuf (pool : NgxPool) (size : ℕ) : NgxPool × NgxBuf :=
  ({ pool with brk := pool.brk + size },
    { ngxCallocBuf with
      pos := pool.brk
      last := pool.brk
      start := pool.brk
      bufEnd := pool.brk + size
      temporary := true })

/-- `ngx_cpymem`: copy `n` bytes and return the address behind the copy. -/
def ngxCpymem (pool : NgxPool) (dst src n : ℕ) : NgxPool × ℕ :=
  ({ pool with mem := fill pool.mem dst (cells pool.mem src (src + n)) }, dst + n)

/-- `ngx_slprintf` of the formatted text `s`: written from `buf` on and cut at `last`. -/
def ngxSlprintf (pool : NgxPool) (buf last : ℕ) (s : List UInt8) : NgxPool × ℕ :=
  ({ pool with mem := fill pool.mem buf (s.take (last - buf)) }, buf + min s.length (last - buf))

/-- A copy right behind an interval extends its bytes by those of the source. -/
theorem cells_ngxCpymem_append (pool : NgxPool) {a dst : ℕ} (src n : ℕ) (h : a ≤ dst) :
    cells (ngxCpymem pool dst src n).1.mem a (dst + n) =
      cells pool.mem a dst ++ cells pool.mem src (src + n) := by
  have hlen : (cells pool.mem src (src + n)).length = n := by simp
  have happend := cells_fill_append (m := pool.mem) (cells pool.mem src (src + n)) h
  rw [hlen] at happend
  exact happend

/-- The copy has the bytes of the source. -/
theorem cells_ngxCpymem (pool : NgxPool) (dst src n : ℕ) :
    cells (ngxCpymem pool dst src n).1.mem dst (dst + n) = cells pool.mem src (src + n) := by
  rw [cells_ngxCpymem_append pool src n le_rfl, cells_self, List.nil_append]

theorem ngxCpymem_mem_of_lt (pool : NgxPool) {dst x : ℕ} (src n : ℕ) (h : x < dst) :
    (ngxCpymem pool dst src n).1.mem x = pool.mem x := fill_of_lt h

end NgxNdg
