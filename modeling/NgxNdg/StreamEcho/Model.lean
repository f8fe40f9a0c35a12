import NgxNdg.Core.Pool

/-!
# The ndg stream echo module

The preread handler copies what the preread buffer holds into a fresh buffer, hands that to the
stream filters and empties the preread buffer. It never lets the preread phase end, so nginx
goes on reading and calling it.

## Main definitions

- `ngxStreamNdgEchoPrereadHandler`
- `EchoSession`, with `EchoSession.call` and `EchoSession.recv`: a session in its preread phase
-/

namespace NgxNdg

open Memory

/-- What the handler gets from nginx: the success of the allocations of the buffer and of the
chain link, and the result of `ngx_stream_top_filter`. -/
structure EchoPrereadOutcomes where
  buf : Bool
  link : Bool
  topFilter : ℤ
  deriving DecidableEq

/-- The preread handler with `c->pool` and `c->buffer`: both of them, the chain handed to
`ngx_stream_top_filter`, and the return code. -/
def ngxStreamNdgEchoPrereadHandler (enable : Bool) (o : EchoPrereadOutcomes) (pool : NgxPool)
    (buffer : Option NgxBuf) : NgxPool × Option NgxBuf × NgxChain × ℤ :=
  if !enable then (pool, buffer, [], ngxDeclined)
  else
    match buffer with
    | none => (pool, buffer, [], ngxAgain)
    | some cb =>
      if !o.buf then (pool, buffer, [], ngxError)
      else
        let (pool, b) := ngxCreateTempBuf pool (ngxBufSize cb).toNat
        let (pool, last) := ngxCpymem pool b.pos cb.pos (ngxBufSize cb).toNat
        let b := { b with last := last }
        if !o.link then (pool, buffer, [], ngxError)
        else if o.topFilter = ngxError then (pool, buffer, [b], ngxError)
        else (pool, some { cb with last := cb.pos }, [b], ngxAgain)

/-- A session in its preread phase: `received` are the bytes read into the preread buffer so
far, `handed` the links handed to the stream filters, and `rc` the last return code. -/
structure EchoSession where
  pool : NgxPool
  buffer : Option NgxBuf
  received : List UInt8
  handed : NgxChain
  rc : ℤ

/-- nginx calls the handler. -/
def EchoSession.call (enable : Bool) (s : EchoSession) (o : EchoPrereadOutcomes) : EchoSession :=
  let (pool, buffer, out, rc) := ngxStreamNdgEchoPrereadHandler enable o s.pool s.buffer
  { s with pool := pool, buffer := buffer, handed := s.handed ++ out, rc := rc }

/-- The preread buffer, which nginx creates before the first read. -/
def EchoSession.prereadBuffer (prereadBufferSize : ℕ) (s : EchoSession) : NgxPool × NgxBuf :=
  match s.buffer with
  | none => ngxCreateTempBuf s.pool prereadBufferSize
  | some b => (s.pool, b)

/-- nginx appends `chunk` to the preread buffer, which has room for it. -/
def EchoSession.append (prereadBufferSize : ℕ) (s : EchoSession) (chunk : List UInt8) :
    Option EchoSession :=
  let (pool, b) := s.prereadBuffer prereadBufferSize
  if b.bufEnd < b.last + chunk.length then none
  else some { s with
    pool := { pool with mem := fill pool.mem b.last chunk }
    buffer := some { b with last := b.last + chunk.length }
    received := s.received ++ chunk }

/-- nginx reads `chunk` and calls the handler. -/
def EchoSession.recv (enable : Bool) (prereadBufferSize : ℕ) (s : EchoSession)
    (chunk : List UInt8) (o : EchoPrereadOutcomes) : Option EchoSession :=
  (s.append prereadBufferSize chunk).map fun s => s.call enable o

/-- A session before its preread phase. -/
def EchoSession.init (pool : NgxPool) : EchoSession where
  pool := pool
  buffer := none
  received := []
  handed := []
  rc := ngxAgain

end NgxNdg
