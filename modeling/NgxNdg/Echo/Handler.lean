import Mathlib.Algebra.Order.Ring.Int
import Mathlib.Logic.Function.Basic
import NgxNdg.Core.Pool

/-!
# The ndg echo module

The content handler answers a `GET` with the configured message, behind the arguments of the
request and a comma when there are any.

## Main definitions

- `ngxHttpNdgEchoHandler`
-/

namespace NgxNdg

open Memory

/-- What the handler reads of the request. -/
structure EchoRequest where
  methodGet : Bool
  args : NgxStr
  headerOnly : Bool
  deriving DecidableEq

/-- What the handler gets from nginx: the results of `ngx_http_discard_request_body`,
`ngx_http_send_header` and `ngx_http_output_filter`, and the success of the allocations of the
buffer and of the chain link. -/
structure EchoOutcomes where
  discardBody : ℤ
  sendHeader : ℤ
  buf : Bool
  link : Bool
  output : ℤ
  deriving DecidableEq

/-- The content handler of a location with the message `msg`: the response headers, and the
output chain with the return code; `none` for the dereference of a chain link that is
`NULL`. -/
def ngxHttpNdgEchoHandler (msg : NgxStr) (r : EchoRequest) (o : EchoOutcomes) (pool : NgxPool)
    (h : HeadersOut) : NgxPool × HeadersOut × Option (NgxChain × ℤ) :=
  if !r.methodGet then (pool, h, some ([], ngxHttpNotAllowed))
  else if o.discardBody ≠ ngxOk then (pool, h, some ([], o.discardBody))
  else
    let len := if r.args.len ≠ 0 then msg.len + (r.args.len + 1) else msg.len
    let h : HeadersOut := ⟨ngxHttpOk, len⟩
    if !bodyFollows o.sendHeader r.headerOnly then (pool, h, some ([], o.sendHeader))
    else if !o.buf then (pool, h, some ([], ngxHttpInternalServerError))
    else
      let (pool, b) := ngxCreateTempBuf pool len
      let (pool, last) :=
        if r.args.len ≠ 0 then
          let (pool, last) := ngxCpymem pool b.pos r.args.data r.args.len
          -- the comma
          ({ pool with mem := Function.update pool.mem last 44 }, last + 1)
        else (pool, b.last)
      let (pool, last) := ngxCpymem pool last msg.data msg.len
      let b := { b with last := last, lastBuf := true, lastInChain := true }
      if !o.link then (pool, h, none)
      else (pool, h, some ([b], o.output))

/-- The bytes the handler answers with. -/
def echoBytes (st : Store) (msg args : NgxStr) : List UInt8 :=
  (if args.len = 0 then [] else args.bytes st ++ [44]) ++ msg.bytes st

/-- The pool behind the arguments and the comma, written from `dst` on. -/
def writeArgsComma (pool : NgxPool) (args : NgxStr) (dst : ℕ) : NgxPool :=
  let (pool, last) := ngxCpymem pool dst args.data args.len
  { pool with mem := Function.update pool.mem last 44 }

theorem cells_writeArgsComma (pool : NgxPool) (args : NgxStr) (dst : ℕ) :
    cells (writeArgsComma pool args dst).mem dst (dst + args.len + 1) =
      args.bytes pool.toStore ++ [44] := by
  have happend := cells_fill_append (m := (ngxCpymem pool dst args.data args.len).1.mem) [44]
    (Nat.le_add_right dst args.len)
  rw [cells_ngxCpymem, fill_singleton] at happend
  exact happend

theorem writeArgsComma_mem_of_lt (pool : NgxPool) (args : NgxStr) {dst x : ℕ} (h : x < dst) :
    (writeArgsComma pool args dst).mem x = pool.mem x := by
  have hne : x ≠ dst + args.len := by omega
  calc (writeArgsComma pool args dst).mem x
      = (ngxCpymem pool dst args.data args.len).1.mem x := Function.update_of_ne hne _ _
    _ = pool.mem x := ngxCpymem_mem_of_lt pool _ _ h

/-- With the strings in allocated memory the handler sends its answer in one marked buffer, and
announces the size of that. -/
theorem echoHandler_output {msg : NgxStr} {r : EchoRequest} {o : EchoOutcomes} {pool : NgxPool}
    (h : HeadersOut) (hget : r.methodGet = true) (hdiscard : o.discardBody = ngxOk)
    (hbody : bodyFollows o.sendHeader r.headerOnly = true) (hbuf : o.buf = true)
    (hlink : o.link = true) (hmsg : msg.data + msg.len ≤ pool.brk) :
    ∃ pool' b, ngxHttpNdgEchoHandler msg r o pool h =
        (pool', ⟨ngxHttpOk, ngxBufSize b⟩, some ([b], o.output)) ∧
      b.bytes pool'.toStore = echoBytes pool.toStore msg r.args ∧
      b.lastBuf = true ∧ b.lastInChain = true := by
  by_cases hlen : r.args.len = 0
  · refine ⟨(ngxCpymem (ngxCreateTempBuf pool msg.len).1 pool.brk msg.data msg.len).1,
      { (ngxCreateTempBuf pool msg.len).2 with
        last := pool.brk + msg.len
        lastBuf := true
        lastInChain := true }, ?_, ?_, rfl, rfl⟩
    · simp [ngxHttpNdgEchoHandler, hget, hdiscard, hbody, hbuf, hlink, hlen, ngxBufSize,
        ngxBufInMemory, ngxCreateTempBuf, ngxCpymem]
    · rw [echoBytes, if_pos hlen, List.nil_append]
      exact (NgxBuf.bytes_of_temporary _ rfl).trans (cells_ngxCpymem _ _ _ _)
  · -- the message is copied behind the arguments and the comma
    let pool₁ := (ngxCreateTempBuf pool (msg.len + (r.args.len + 1))).1
    let pool₂ := writeArgsComma pool₁ r.args pool.brk
    refine ⟨(ngxCpymem pool₂ (pool.brk + r.args.len + 1) msg.data msg.len).1,
      { (ngxCreateTempBuf pool (msg.len + (r.args.len + 1))).2 with
        last := pool.brk + r.args.len + 1 + msg.len
        lastBuf := true
        lastInChain := true }, ?_, ?_, rfl, rfl⟩
    · have hsize : (msg.len : ℤ) + (r.args.len + 1) =
          pool.brk + r.args.len + 1 + msg.len - pool.brk := by omega
      simpa [ngxHttpNdgEchoHandler, hget, hdiscard, hbody, hbuf, hlink, hlen, ngxBufSize,
        ngxBufInMemory, ngxCreateTempBuf, ngxCpymem, writeArgsComma, pool₁, pool₂] using hsize
    · have hmsgBytes : cells pool₂.mem msg.data (msg.data + msg.len) = msg.bytes pool.toStore :=
        cells_congr fun x _ hx => writeArgsComma_mem_of_lt pool₁ r.args (by omega)
      have hargsBytes : cells pool₂.mem pool.brk (pool.brk + r.args.len + 1) =
          r.args.bytes pool.toStore ++ [44] := cells_writeArgsComma pool₁ r.args pool.brk
      have hle : pool.brk ≤ pool.brk + r.args.len + 1 := by omega
      rw [echoBytes, if_neg hlen, ← hargsBytes, ← hmsgBytes,
        ← cells_ngxCpymem_append pool₂ msg.data msg.len hle]
      exact NgxBuf.bytes_of_temporary _ rfl

end NgxNdg
