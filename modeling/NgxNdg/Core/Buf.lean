import Mathlib.Data.List.Flatten
import NgxNdg.Lib.Memory

/-!
# Return codes, headers, strings, buffers and chains

The nginx types every module of the repository works on. A pointer to memory is an
address, with `0` for `NULL`. A chain pointer is the list of the buffers its links hold:
`NULL` is the empty list, and a write through the pointer is a new list.
-/

namespace NgxNdg

open Memory

-- ════════════════════════════════════════════════════════════════════════
-- Return codes
-- ════════════════════════════════════════════════════════════════════════

def ngxOk : ℤ := 0
def ngxError : ℤ := -1
def ngxAgain : ℤ := -2
def ngxBusy : ℤ := -3
def ngxDone : ℤ := -4
def ngxDeclined : ℤ := -5

def ngxHttpOk : ℤ := 200
def ngxHttpSpecialResponse : ℤ := 300
def ngxHttpForbidden : ℤ := 403
def ngxHttpNotAllowed : ℤ := 405
def ngxHttpInternalServerError : ℤ := 500

-- ════════════════════════════════════════════════════════════════════════
-- Response headers
-- ════════════════════════════════════════════════════════════════════════

/-- `headers_out.status` and `headers_out.content_length_n`. -/
structure HeadersOut where
  status : ℤ
  contentLengthN : ℤ
  deriving DecidableEq

/-- A body is to follow `ngx_http_send_header`: the check of its result that the content
handlers make. -/
def bodyFollows (sendHeader : ℤ) (headerOnly : Bool) : Bool :=
  !(sendHeader == ngxError || sendHeader > ngxOk || headerOnly)

-- ════════════════════════════════════════════════════════════════════════
-- Strings and buffers
-- ════════════════════════════════════════════════════════════════════════

/-- The bytes a pointer can reach: the memory, and the contents of the open files. -/
structure Store where
  mem : ℕ → UInt8
  files : ℕ → ℕ → UInt8

/-- `ngx_str_t`: a length and a pointer to the first byte. -/
structure NgxStr where
  len : ℕ
  data : ℕ
  deriving DecidableEq, Repr

/-- The bytes of a string. -/
def NgxStr.bytes (st : Store) (s : NgxStr) : List UInt8 :=
  cells st.mem s.data (s.data + s.len)

@[simp] theorem NgxStr.length_bytes (st : Store) (s : NgxStr) : (s.bytes st).length = s.len := by
  simp [NgxStr.bytes]

/-- `ngx_buf_t`, without the fields no module of the repository touches. -/
structure NgxBuf where
  pos : ℕ
  last : ℕ
  filePos : ℕ
  fileLast : ℕ
  start : ℕ
  bufEnd : ℕ
  file : ℕ
  temporary : Bool
  memory : Bool
  mmap : Bool
  inFile : Bool
  lastBuf : Bool
  lastInChain : Bool
  deriving DecidableEq, Repr

/-- The zeroed buffer that `ngx_calloc_buf` returns. -/
def ngxCallocBuf : NgxBuf where
  pos := 0
  last := 0
  filePos := 0
  fileLast := 0
  start := 0
  bufEnd := 0
  file := 0
  temporary := false
  memory := false
  mmap := false
  inFile := false
  lastBuf := false
  lastInChain := false

/-- The macro `ngx_buf_in_memory`. -/
def ngxBufInMemory (b : NgxBuf) : Bool := b.temporary || b.memory || b.mmap

/-- The macro `ngx_buf_size`, an `off_t`. -/
def ngxBufSize (b : NgxBuf) : ℤ :=
  if ngxBufInMemory b then (b.last : ℤ) - b.pos else (b.fileLast : ℤ) - b.filePos

/-- The bytes a writer sends for a buffer; a buffer that is neither in memory nor in a
file has none. -/
def NgxBuf.bytes (st : Store) (b : NgxBuf) : List UInt8 :=
  if ngxBufInMemory b then cells st.mem b.pos b.last
  else if b.inFile then cells (st.files b.file) b.filePos b.fileLast
  else []

theorem NgxBuf.bytes_of_temporary (st : Store) {b : NgxBuf} (h : b.temporary = true) :
    b.bytes st = cells st.mem b.pos b.last := by
  simp [NgxBuf.bytes, ngxBufInMemory, h]

/-- A buffer in memory sends the same bytes while its cells are left alone. -/
theorem NgxBuf.bytes_congr {st st' : Store} {b : NgxBuf} (h : b.temporary = true)
    (heq : ∀ x, b.pos ≤ x → x < b.last → st.mem x = st'.mem x) : b.bytes st = b.bytes st' := by
  rw [NgxBuf.bytes_of_temporary st h, NgxBuf.bytes_of_temporary st' h]
  exact cells_congr heq

/-- A buffer of size zero sends nothing, whatever it is made of. -/
theorem NgxBuf.bytes_of_size_zero (st : Store) {b : NgxBuf} (h : ngxBufSize b = 0) :
    b.bytes st = [] := by
  unfold ngxBufSize at h
  unfold NgxBuf.bytes
  split
  · next hm =>
    rw [if_pos hm] at h
    exact cells_eq_nil_iff.mpr (by omega)
  · next hm =>
    rw [if_neg hm] at h
    split
    · exact cells_eq_nil_iff.mpr (by omega)
    · rfl

/-- Clearing the end marks of a buffer does not change what it sends. -/
@[simp] theorem NgxBuf.bytes_marks (st : Store) (b : NgxBuf) (l c : Bool) :
    NgxBuf.bytes st { b with lastBuf := l, lastInChain := c } = b.bytes st := rfl

-- ════════════════════════════════════════════════════════════════════════
-- Chains
-- ════════════════════════════════════════════════════════════════════════

/-- `ngx_chain_t *`: the buffers of the links, `[]` for `NULL`. -/
abbrev NgxChain := List NgxBuf

/-- The bytes a writer sends for a chain. -/
def chainBytes (st : Store) (c : NgxChain) : List UInt8 := c.flatMap (NgxBuf.bytes st)

@[simp] theorem chainBytes_nil (st : Store) : chainBytes st [] = [] := rfl

@[simp] theorem chainBytes_cons (st : Store) (b : NgxBuf) (c : NgxChain) :
    chainBytes st (b :: c) = b.bytes st ++ chainBytes st c := by
  simp [chainBytes]

@[simp] theorem chainBytes_append (st : Store) (c d : NgxChain) :
    chainBytes st (c ++ d) = chainBytes st c ++ chainBytes st d := by
  simp [chainBytes]

theorem chainBytes_congr {st st' : Store} {c : NgxChain}
    (h : ∀ b ∈ c, b.bytes st = b.bytes st') : chainBytes st c = chainBytes st' c := by
  unfold chainBytes
  rw [List.flatMap_def, List.flatMap_def, List.map_congr_left h]

end NgxNdg
