import NgxNdg.StreamEcho.Session
import NgxNdg.Upstream.Connection
import NgxNdg.Upstream.Replay

/-!
# The line protocol against the echo server

The upstream module sends its request to the stream echo module and reads back what that
returns. The bytes in flight from the server are those of the links it has handed out, read
from its memory when the client reads them.

## Main definitions

- `echoLoopStep`: the client and the server, one step per read or call
- `EchoedLine`: what the client has made of the bytes it has read so far
-/

namespace NgxNdg

open Transition

/-- A client and an echo server: `read` bytes have arrived back at the client, and `toServer`
are the bytes on the way to the server. -/
structure EchoLoop where
  client : UpstreamReader
  read : ℕ
  toServer : List UInt8
  server : EchoSession

inductive EchoLoopEvent where
  /-- nginx calls the preread handler without new bytes -/
  | serverCall (topFilter : ℤ)
  /-- the server reads `k` bytes, and nginx calls the preread handler -/
  | serverRead (k : ℕ) (topFilter : ℤ)
  /-- the client reads `k` bytes -/
  | clientRead (k : ℕ)

/-- One step. Allocations succeed and the stream filters accept the data; a read brings one byte
at least and no more than has arrived. -/
def echoLoopStep (prereadBufferSize : ℕ) (s : EchoLoop) : EchoLoopEvent → Option EchoLoop
  | .serverCall topFilter =>
    if topFilter = ngxError then none
    else some { s with server := s.server.call true ⟨true, true, topFilter⟩ }
  | .serverRead k topFilter =>
    if topFilter = ngxError then none
    else if k = 0 ∨ s.toServer.length < k then none
    else
      (s.server.recv true prereadBufferSize (s.toServer.take k) ⟨true, true, topFilter⟩).map
        fun server => { s with server := server, toServer := s.toServer.drop k }
  | .clientRead k =>
    let sent := chainBytes s.server.pool.toStore s.server.handed
    if k = 0 ∨ sent.length < s.read + k then none
    else
      (s.client.recv ((sent.drop s.read).take k)).map
        fun client => { s with client := client, read := s.read + k }

/-- The client with the request it has created and a buffer of `size` bytes, and a new session
of the server. -/
def EchoLoop.init (st : Store) (lfStr args : NgxStr) (start size : ℕ) (pool : NgxPool) :
    EchoLoop :=
  let u := (ngxHttpNdgUpstreamCreateRequest ⟨true, true, true, true⟩ lfStr args
    ngxHttpUpstreamCreate).1
  { client := .init st u start size
    read := 0
    toServer := chainBytes st u.requestBufs
    server := .init pool }

/-- While the line feed has not come back, every call of `process_header` has asked for more
and touched nothing, and the buffer holds what has come back; behind it the last call has
accepted the line. When nothing is on its way any more, the line feed has come back. -/
structure EchoedLine (size : ℕ) (args : List UInt8) (s : EchoLoop) : Prop where
  again : s.read ≤ args.length → Reading size (args.take s.read) s.client
  ok : args.length < s.read → HeaderRead args s.client
  complete : s.toServer = [] →
    s.read = (chainBytes s.server.pool.toStore s.server.handed).length → args.length < s.read

/-- The server has echoed all it has received, and that is a part of the request. -/
structure EchoLoopInv (prereadBufferSize size : ℕ) (args : List UInt8) (s : EchoLoop) : Prop where
  session : SessionInv prereadBufferSize s.server
  drained : s.server.Drained
  line : s.server.received ++ s.toServer = args ++ [lf]
  read_le : s.read ≤ s.server.received.length
  client : LineRead size args s.read s.client

variable {prereadBufferSize size : ℕ} {args : List UInt8} {s t : EchoLoop}

theorem EchoLoopInv.serverCall {topFilter : ℤ} (h : EchoLoopInv prereadBufferSize size args s)
    (hstep : echoLoopStep prereadBufferSize s (.serverCall topFilter) = some t) :
    EchoLoopInv prereadBufferSize size args t := by
  simp only [echoLoopStep] at hstep
  split at hstep
  · cases hstep
  next hfilter =>
  obtain rfl := Option.some.inj hstep
  obtain ⟨hsession, hdrained, hreceived⟩ :=
    h.session.call (o := ⟨true, true, topFilter⟩) rfl rfl hfilter
  exact
    { session := hsession
      drained := hdrained
      line := by
        rw [hreceived]
        exact h.line
      read_le := by
        rw [hreceived]
        exact h.read_le
      client := h.client }

theorem EchoLoopInv.serverRead {k : ℕ} {topFilter : ℤ}
    (h : EchoLoopInv prereadBufferSize size args s)
    (hstep : echoLoopStep prereadBufferSize s (.serverRead k topFilter) = some t) :
    EchoLoopInv prereadBufferSize size args t := by
  simp only [echoLoopStep] at hstep
  split at hstep
  · cases hstep
  next hfilter =>
  split at hstep
  · cases hstep
  obtain ⟨server, hrecv, rfl⟩ := Option.map_eq_some_iff.mp hstep
  obtain ⟨hsession, hdrained, hreceived⟩ := h.session.recv rfl rfl hfilter hrecv
  exact
    { session := hsession
      drained := hdrained
      line := by
        rw [hreceived, List.append_assoc, List.take_append_drop]
        exact h.line
      read_le := by
        rw [hreceived, List.length_append]
        exact h.read_le.trans (Nat.le_add_right _ _)
      client := h.client }

theorem EchoLoopInv.clientRead {k : ℕ} (h : EchoLoopInv prereadBufferSize size args s)
    (hlf : lf ∉ args) (hfit : args.length + 1 ≤ size)
    (hstep : echoLoopStep prereadBufferSize s (.clientRead k) = some t) :
    EchoLoopInv prereadBufferSize size args t := by
  have hsent := h.session.handed_bytes h.drained
  simp only [echoLoopStep, hsent] at hstep
  split at hstep
  · cases hstep
  next hguard =>
  obtain ⟨client, hrecv, rfl⟩ := Option.map_eq_some_iff.mp hstep
  have hk : s.read + k ≤ s.server.received.length := by omega
  have htotal : s.server.received.length ≤ args.length + 1 := by
    have hlen := congrArg List.length h.line
    simp only [List.length_append, List.length_singleton] at hlen
    omega
  -- what comes next is the next piece of the request
  rw [← piece_append _ s.toServer hk, h.line] at hrecv
  exact ⟨h.session, h.drained, h.line, hk, h.client.recv hlf hfit (by omega) (by omega) hrecv⟩

theorem EchoLoopInv.echoedLine (h : EchoLoopInv prereadBufferSize size args s) :
    EchoedLine size args s where
  again := h.client.again
  ok := fun hlt => (h.client.ok hlt).1
  complete := by
    intro hempty hread
    have hlen := congrArg List.length h.line
    rw [hempty, List.append_nil, List.length_append, List.length_singleton] at hlen
    rw [hread, h.session.handed_bytes h.drained, hlen]
    exact Nat.lt_succ_self _

theorem EchoLoopInv.init (st : Store) (lfStr args : NgxStr) (start : ℕ) (pool : NgxPool)
    (hlfStr : lfStr.bytes st = [lf]) :
    EchoLoopInv prereadBufferSize size (args.bytes st)
      (.init st lfStr args start size pool) where
  session := .init prereadBufferSize pool
  drained := fun _ hb => nomatch hb
  line := by
    rw [← hlfStr, ← createRequest_bytes st lfStr args ngxHttpUpstreamCreate]
    rfl
  read_le := le_rfl
  client := .init (.init st start size rfl)

theorem echoLoop_along (prereadBufferSize start size : ℕ) (st : Store) (lfStr args : NgxStr)
    (pool : NgxPool) (hlfStr : lfStr.bytes st = [lf]) (hargs : lf ∉ args.bytes st)
    (hfit : args.len + 1 ≤ size) (es : List EchoLoopEvent) :
    Along (echoLoopStep prereadBufferSize)
      (EchoLoopInv prereadBufferSize size (args.bytes st))
      (.init st lfStr args start size pool) es := by
  have hsize : (args.bytes st).length + 1 ≤ size := by
    rw [NgxStr.length_bytes]
    exact hfit
  refine Along.of_invariant ?_ (.init st lfStr args start pool hlfStr) es
  intro s e t h hstep
  cases e with
  | serverCall topFilter => exact h.serverCall hstep
  | serverRead k topFilter => exact h.serverRead hstep
  | clientRead k => exact h.clientRead hargs hsize hstep

/-- **The line protocol against the echo server.** However the bytes are split into reads on
the way to the server and back, `process_header` asks for more and touches nothing until the
line feed has come back, and then the buffer holds the arguments and their length is
announced. -/
theorem echo_line (prereadBufferSize start size : ℕ) (st : Store) (lfStr args : NgxStr)
    (pool : NgxPool) (hlfStr : lfStr.bytes st = [lf]) (hargs : lf ∉ args.bytes st)
    (hfit : args.len + 1 ≤ size) (es : List EchoLoopEvent) :
    Along (echoLoopStep prereadBufferSize) (EchoedLine size (args.bytes st))
      (.init st lfStr args start size pool) es := by
  have hinv := echoLoop_along prereadBufferSize start size st lfStr args pool hlfStr hargs hfit es
  exact hinv.mono fun s h => h.echoedLine

/-- The line `hi`: the server reads it in two pieces and the client in two other ones. -/
theorem echo_line_hi : ∃ t,
    exec (echoLoopStep 8) (.init ⟨fun x => if x = 2 then 10 else 104 + x.toUInt8, fun _ _ => 0⟩
        ⟨1, 2⟩ ⟨2, 0⟩ 16 3 ⟨⟨fun _ => 0, fun _ _ => 0⟩, 64⟩)
      [.serverCall ngxOk, .serverRead 2 ngxOk, .clientRead 1, .serverRead 1 ngxAgain,
        .clientRead 2] = some t ∧ HeaderRead [104, 105] t.client := by
  refine ⟨_, rfl, ?_⟩
  have hline := echo_line 8 16 3 ⟨fun x => if x = 2 then 10 else 104 + x.toUInt8, fun _ _ => 0⟩
    ⟨1, 2⟩ ⟨2, 0⟩ ⟨⟨fun _ => 0, fun _ _ => 0⟩, 64⟩ (by decide) (by decide) (by decide)
    [.serverCall ngxOk, .serverRead 2 ngxOk, .clientRead 1, .serverRead 1 ngxAgain, .clientRead 2]
  exact (along_iff_exec.mp hline _ List.prefix_rfl _ rfl).ok (by decide)

end NgxNdg
