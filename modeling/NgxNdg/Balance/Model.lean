import NgxNdg.Core.Buf
import NgxNdg.Lib.Ledger

/-!
# The ndg balance module

`ndg_balance` picks a random peer for an attempt and falls back on the round robin of nginx.
The peers are numbered from 0 in the order of the list behind `peers->peer`; what changes
while the worker runs, the `conns` counters, is kept apart from the list.

The round robin is nginx code. Its `get` takes the peer it answers with as a parameter,
`none` for `NGX_BUSY`; it raises `conns` of that peer by one, makes it `rrp->current` and
sets its bit in `rrp->tried`. Its `free` lowers `conns` of `rrp->current` by one.

## Main definitions

- `ngxHttpUpstreamInitNdgBalancePeer`, `ngxHttpUpstreamGetNdgBalancePeer`
- `balanceStep`: peers shared by any number of requests, one step per call
-/

namespace NgxNdg

open Ledger

/-- `ngx_http_upstream_rr_peer_t`, without `conns`. -/
structure NgxHttpUpstreamRrPeer where
  sockaddr : ℕ
  socklen : ℕ
  name : NgxStr
  down : Bool
  deriving DecidableEq

/-- `ngx_http_upstream_rr_peers_t`; `number` is the length of the list. -/
structure NgxHttpUpstreamRrPeers where
  single : Bool
  peer : List NgxHttpUpstreamRrPeer

/-- `ngx_http_upstream_rr_peer_data_t`: the current peer and the bits set in `tried`. -/
structure NgxHttpUpstreamRrPeerData where
  current : Option ℕ
  tried : List ℕ
  deriving DecidableEq

/-- `ngx_http_upstream_ndg_balance_peer_data_t`, with `tries` of type `u_char`. -/
structure NgxHttpUpstreamNdgBalancePeerData where
  rrp : NgxHttpUpstreamRrPeerData
  tries : UInt8
  deriving DecidableEq

/-- The functions `peer.get` can be. -/
inductive PeerGet where
  | roundRobin
  | ndgBalance
  deriving DecidableEq

/-- `ngx_peer_connection_t`, with the peer data of its request. -/
structure NgxPeerConnection where
  get : PeerGet
  data : NgxHttpUpstreamNdgBalancePeerData
  cached : Bool
  connection : Option ℕ
  sockaddr : ℕ
  socklen : ℕ
  name : Option NgxStr
  deriving DecidableEq

/-- Take over the address of a peer. -/
def NgxPeerConnection.setPeer (pc : NgxPeerConnection) (p : NgxHttpUpstreamRrPeer) :
    NgxPeerConnection :=
  { pc with sockaddr := p.sockaddr, socklen := p.socklen, name := some p.name }

/-- `ngx_http_upstream_get_round_robin_peer` of nginx when it answers with `answer`. -/
def ngxHttpUpstreamGetRoundRobinPeer (peers : NgxHttpUpstreamRrPeers) (answer : Option ℕ)
    (conns : ℕ → ℤ) (pc : NgxPeerConnection) : Option ((ℕ → ℤ) × NgxPeerConnection × ℤ) :=
  match answer with
  | none => some (conns, pc, ngxBusy)
  | some i =>
    (peers.peer[i]?).map fun p =>
      (bump conns i 1,
        { pc.setPeer p with
          data := { pc.data with rrp := ⟨some i, i :: pc.data.rrp.tried⟩ }
          cached := false
          connection := none },
        ngxOk)

/-- `ngx_http_upstream_free_round_robin_peer` of nginx. -/
def ngxHttpUpstreamFreeRoundRobinPeer (conns : ℕ → ℤ) (pc : NgxPeerConnection) : ℕ → ℤ :=
  match pc.data.rrp.current with
  | none => conns
  | some i => bump conns i (-1)

/-- The peer data of a new request, zeroed, behind `ngx_http_upstream_init_round_robin_peer`;
`none` when the allocation or the round robin fails. -/
def ngxHttpUpstreamInitNdgBalancePeer (pcalloc roundRobin : Bool) : Option NgxPeerConnection :=
  if !pcalloc then none
  else if !roundRobin then none
  else some
    { get := .ndgBalance
      data := ⟨⟨none, []⟩, 0⟩
      cached := false
      connection := none
      sockaddr := 0
      socklen := 0
      name := none }

/-- The choice of a peer for one attempt, with the random number `draw`. The loop walks `i`
links from the head of the list; `none` is the crash of `draw % 0`, or an answer of the round
robin that is no peer. -/
def ngxHttpUpstreamGetNdgBalancePeer (peers : NgxHttpUpstreamRrPeers) (draw : ℕ)
    (answer : Option ℕ) (conns : ℕ → ℤ) (pc : NgxPeerConnection) :
    Option ((ℕ → ℤ) × NgxPeerConnection × ℤ) :=
  if pc.data.tries > 5 ∨ peers.single then
    ngxHttpUpstreamGetRoundRobinPeer peers answer conns pc
  else
    let pc := { pc with cached := false, connection := none }
    let i := draw % peers.peer.length
    match peers.peer[i]? with
    | none => none
    | some peer =>
      if peer.down then ngxHttpUpstreamGetRoundRobinPeer peers answer conns pc
      else
        let pc := { pc with data := { pc.data with rrp := { pc.data.rrp with current := some i } } }
        some (conns, pc.setPeer peer, ngxOk)

/-- The requests of a worker that share the peers. `attempts` records the acquired and not yet
released attempts: the request and the peer. -/
structure BalanceState where
  conns : ℕ → ℤ
  peer : ℕ → Option NgxPeerConnection
  attempts : List (ℕ × ℕ)

inductive BalanceEvent where
  /-- nginx initializes the peer data of a request -/
  | init (r : ℕ) (pcalloc roundRobin : Bool)
  /-- nginx asks for a peer for the next attempt of a request -/
  | get (r : ℕ) (draw : ℕ) (answer : Option ℕ)
  /-- nginx releases the peer of the attempt of a request -/
  | free (r : ℕ)

/-- One step. nginx releases the peer of an attempt before it asks for another one. -/
def balanceStep (peers : NgxHttpUpstreamRrPeers) (s : BalanceState) :
    BalanceEvent → Option BalanceState
  | .init r pcalloc roundRobin =>
    match s.peer r, ngxHttpUpstreamInitNdgBalancePeer pcalloc roundRobin with
    | none, some pc => some { s with peer := Function.update s.peer r (some pc) }
    | _, _ => none
  | .get r draw answer =>
    match s.peer r, s.attempts.find? fun a => a.1 == r with
    | some pc, none =>
      let result :=
        match pc.get with
        | .ndgBalance => ngxHttpUpstreamGetNdgBalancePeer peers draw answer s.conns pc
        | .roundRobin => ngxHttpUpstreamGetRoundRobinPeer peers answer s.conns pc
      match result with
      | none => none
      | some (conns, pc, rc) =>
        some { s with
          conns := conns
          peer := Function.update s.peer r (some pc)
          attempts :=
            if rc = ngxOk then (pc.data.rrp.current.map fun i => (r, i)).toList ++ s.attempts
            else s.attempts }
    | _, _ => none
  | .free r =>
    match s.peer r, s.attempts.find? fun a => a.1 == r with
    | some pc, some attempt =>
      some { s with
        conns := ngxHttpUpstreamFreeRoundRobinPeer s.conns pc
        attempts := s.attempts.erase attempt }
    | _, _ => none

/-- No request and no connection yet. -/
def BalanceState.init : BalanceState := ⟨fun _ => 0, fun _ => none, []⟩

end NgxNdg
