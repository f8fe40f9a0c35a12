import NgxNdg.Core.Pool

/-!
# The ndg upstream module

The request to the upstream server is the arguments of the client request and a line feed; the
answer is a line, whose length becomes the content length of the response.

nginx drives the module. It appends what it reads to `u->buffer` and calls `process_header`
until that returns `NGX_OK`. Then the bytes left in the buffer, and those of every later read,
go through the input filter; where the module has installed none, the default one delivers all
of them.

## Main definitions

- `ngxHttpNdgUpstreamHandler`, `ngxHttpNdgUpstreamCreateRequest`,
  `ngxHttpNdgUpstreamProcessHeader`
- `UpstreamReader.recv`: one read from the upstream server
-/

namespace NgxNdg

open Memory

/-- The line feed. -/
def lf : UInt8 := 10

/-- `ngx_http_upstream_t`, without the fields the module does not touch. `contentLengthN` and
`statusN` are those of `headers_in`; `inputFilter` gives the bytes delivered for the bytes
read, and is `none` while it is not set. -/
structure NgxHttpUpstream where
  buffer : NgxBuf
  requestBufs : NgxChain
  inputFilter : Option (List UInt8 → List UInt8)
  contentLengthN : ℤ
  statusN : ℤ
  stateStatus : ℤ

/-- `ngx_http_upstream_create` when it succeeds. -/
def ngxHttpUpstreamCreate : NgxHttpUpstream where
  buffer := ngxCallocBuf
  requestBufs := []
  inputFilter := none
  contentLengthN := -1
  statusN := 0
  stateStatus := 0

/-- The content handler, with the results of `ngx_http_discard_request_body` and
`ngx_http_upstream_create`: the upstream, `r->main->count` and the return code. -/
def ngxHttpNdgUpstreamHandler (methodGet : Bool) (discardBody : ℤ) (create : Bool) (count : ℤ) :
    Option NgxHttpUpstream × ℤ × ℤ :=
  if !methodGet then (none, count, ngxHttpNotAllowed)
  else if discardBody ≠ ngxOk then (none, count, discardBody)
  else if !create then (none, count, ngxHttpInternalServerError)
  else (some ngxHttpUpstreamCreate, count + 1, ngxDone)

/-- Success of the allocations of `create_request`. -/
structure CreateRequestAllocs where
  buf1 : Bool
  buf2 : Bool
  link1 : Bool
  link2 : Bool

/-- `create_request`; `lfStr` is the static string that holds the line feed. -/
def ngxHttpNdgUpstreamCreateRequest (allocs : CreateRequestAllocs) (lfStr args : NgxStr)
    (u : NgxHttpUpstream) : NgxHttpUpstream × ℤ :=
  if !allocs.buf1 || !allocs.buf2 then (u, ngxError)
  else
    let b1 := { ngxCallocBuf with
      pos := args.data
      last := args.data + args.len
      memory := true }
    let b2 := { ngxCallocBuf with
      pos := lfStr.data
      last := lfStr.data + lfStr.len
      memory := true
      lastBuf := true
      lastInChain := true }
    if !allocs.link1 || !allocs.link2 then (u, ngxError)
    else ({ u with requestBufs := [b1, b2] }, ngxOk)

/-- `reinit_request`, called before each new attempt: nothing is done. -/
def ngxHttpNdgUpstreamReinitRequest (u : NgxHttpUpstream) : NgxHttpUpstream × ℤ := (u, ngxOk)

/-- `ngx_strlchr`: the first `c` in `[p, last)`, `none` for `NULL`. -/
def ngxStrlchr (st : Store) (p last : ℕ) (c : UInt8) : Option ℕ := scan st.mem c p last

def ngxHttpNdgUpstreamProcessHeader (st : Store) (u : NgxHttpUpstream) : NgxHttpUpstream × ℤ :=
  match ngxStrlchr st u.buffer.pos u.buffer.last lf with
  | none => (u, ngxAgain)
  | some p =>
    ({ u with
      contentLengthN := (p : ℤ) - u.buffer.pos
      statusN := ngxHttpOk
      stateStatus := ngxHttpOk
      buffer := { u.buffer with last := p } },
      ngxOk)

/-- A call of `process_header`: the upstream before and after it, and the return code. -/
structure HeaderCall where
  entry : NgxHttpUpstream
  exit : NgxHttpUpstream
  rc : ℤ

/-- The reading end of an upstream connection. `delivered` are the body bytes passed on
downstream, `calls` the calls of `process_header`, the last one first. -/
structure UpstreamReader where
  st : Store
  u : NgxHttpUpstream
  headerDone : Bool
  delivered : List UInt8
  calls : List HeaderCall

/-- What the input filter, or the default one, delivers. -/
def NgxHttpUpstream.filtered (u : NgxHttpUpstream) (bytes : List UInt8) : List UInt8 :=
  u.inputFilter.elim bytes fun filter => filter bytes

/-- The memory behind a read that appends `chunk` to the buffer. -/
def UpstreamReader.readStore (r : UpstreamReader) (chunk : List UInt8) : Store :=
  { r.st with mem := fill r.st.mem r.u.buffer.last chunk }

/-- The upstream behind a read that appends `chunk` to the buffer. -/
def UpstreamReader.readUpstream (r : UpstreamReader) (chunk : List UInt8) : NgxHttpUpstream :=
  { r.u with buffer := { r.u.buffer with last := r.u.buffer.last + chunk.length } }

/-- A read that brings `chunk`. While the header is awaited nginx reads no more than the
buffer has room for; afterwards it empties the buffer before each read. -/
def UpstreamReader.recv (r : UpstreamReader) (chunk : List UInt8) : Option UpstreamReader :=
  if r.headerDone then some { r with delivered := r.delivered ++ r.u.filtered chunk }
  else if r.u.buffer.bufEnd < r.u.buffer.last + chunk.length then none
  else
    let st := r.readStore chunk
    let entry := r.readUpstream chunk
    let (u, rc) := ngxHttpNdgUpstreamProcessHeader st entry
    some {
      st := st
      u := u
      headerDone := rc == ngxOk
      delivered := if rc = ngxOk then u.filtered (u.buffer.bytes st) else r.delivered
      calls := ⟨entry, u, rc⟩ :: r.calls }

/-- The buffer of `size` bytes that nginx gives to an upstream `u` of the content handler. -/
def UpstreamReader.init (st : Store) (u : NgxHttpUpstream) (start size : ℕ) : UpstreamReader where
  st := st
  u := { u with
    buffer := { ngxCallocBuf with
      pos := start
      last := start
      start := start
      bufEnd := start + size
      temporary := true } }
  headerDone := false
  delivered := []
  calls := []

end NgxNdg
