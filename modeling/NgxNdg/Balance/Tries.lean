import NgxNdg.Balance.Accounting

/-!
# The bound on random picks

`pd->tries` is to bound the random picks of a request: beyond five, the round robin is asked. The
module zeroes the counter, reads it and never counts: every call of a request finds it at 0, and
the picks of a request are the draws that hit a peer in use.

## Main definitions

- `peerCallStep`: a call for a peer, with what the other requests have made of the peers
- `PicksBounded`: at most six random picks, and the round robin behind them
- `DrawsUp`: a random number hits a peer that is not down
-/

namespace NgxNdg

open Transition

/-- What answers a call for a peer. -/
inductive ServedBy
  | randomPick
  | roundRobin
  deriving DecidableEq

/-- A call for a peer: the peers and the counters it finds, the random number, and what the round
robin answers when it is asked. -/
structure PeerCall where
  peers : NgxHttpUpstreamRrPeers
  conns : ℕ → ℤ
  draw : ℕ
  answer : Option ℕ

/-- A request after some calls: its peer connection, and what has answered the calls. -/
structure PeerCalls where
  pc : NgxPeerConnection
  served : List ServedBy

instance (peers : NgxHttpUpstreamRrPeers) (draw : ℕ) (pc : NgxPeerConnection) :
    Decidable (Delegates peers draw pc) := by
  unfold Delegates
  infer_instance

/-- One call. -/
def peerCallStep (s : PeerCalls) (e : PeerCall) : Option PeerCalls :=
  (ngxHttpUpstreamGetNdgBalancePeer e.peers e.draw e.answer e.conns s.pc).map fun r =>
    { pc := r.2.1
      served := s.served ++
        [if Delegates e.peers e.draw s.pc then .roundRobin else .randomPick] }

/-- At most six calls are random picks, and each call behind these is one of the round robin. -/
structure PicksBounded (served : List ServedBy) : Prop where
  atMost : served.count .randomPick ≤ 6
  later : ∀ pre c post, served = pre ++ c :: post → 6 ≤ pre.count .randomPick → c = .roundRobin

/-- The random number of the call hits a peer that is not down, among several. -/
def DrawsUp (e : PeerCall) : Bool :=
  !e.peers.single && (e.peers.peer[e.draw % e.peers.peer.length]?).any fun p => !p.down

variable {s t : PeerCalls} {e : PeerCall}

theorem picksBounded_iff {served : List ServedBy} :
    PicksBounded served ↔ served.count .randomPick ≤ 6 := by
  refine ⟨fun h => h.atMost, fun h => ⟨h, ?_⟩⟩
  rintro pre c post rfl hpre
  cases c with
  | roundRobin => rfl
  | randomPick =>
    rw [List.count_append, List.count_cons_self] at h
    omega

/-- No call counts: neither the pick nor the round robin touches `pd->tries`. -/
theorem getPeer_tries {peers : NgxHttpUpstreamRrPeers} {draw : ℕ} {answer : Option ℕ}
    {conns conns' : ℕ → ℤ} {pc pc' : NgxPeerConnection} {rc : ℤ}
    (h : ngxHttpUpstreamGetNdgBalancePeer peers draw answer conns pc = some (conns', pc', rc)) :
    pc'.data.tries = pc.data.tries := by
  obtain ⟨-, pc₁, hcall, -, hdata⟩ | ⟨-, -, -, -, -, htries, -⟩ := getPeer_cases h
  · rw [(roundRobin_cases hcall).2.1, hdata]
  · exact htries

/-- While the tries are not used up, a call is delegated unless it draws a peer in use. -/
theorem not_delegates_iff {r : (ℕ → ℤ) × NgxPeerConnection × ℤ} {pc : NgxPeerConnection}
    (htries : pc.data.tries ≤ 5)
    (h : ngxHttpUpstreamGetNdgBalancePeer e.peers e.draw e.answer e.conns pc = some r) :
    ¬ Delegates e.peers e.draw pc ↔ DrawsUp e = true := by
  have hguard : ¬ pc.data.tries > 5 := UInt8.not_lt.mpr htries
  unfold ngxHttpUpstreamGetNdgBalancePeer at h
  cases hsingle : e.peers.single with
  | true => simp [Delegates, DrawsUp, hsingle]
  | false =>
    cases hpeer : e.peers.peer[e.draw % e.peers.peer.length]? with
    | none =>
      simp only [hguard, hsingle, hpeer] at h
      cases h
    | some p => simp [Delegates, DrawsUp, hguard, hsingle, hpeer]

/-- A call keeps the counter and is a random pick exactly when it draws a peer in use. -/
theorem peerCallStep_cases (htries : s.pc.data.tries ≤ 5) (hstep : peerCallStep s e = some t) :
    t.pc.data.tries = s.pc.data.tries ∧
      t.served = s.served ++ [if DrawsUp e then .randomPick else .roundRobin] := by
  obtain ⟨r, hcall, rfl⟩ := Option.map_eq_some_iff.mp hstep
  refine ⟨getPeer_tries hcall, ?_⟩
  have hiff := not_delegates_iff htries hcall
  by_cases hup : DrawsUp e = true
  · rw [if_neg (hiff.mpr hup), if_pos hup]
  · rw [if_pos (not_not.mp fun hd => hup (hiff.mp hd)), if_neg hup]

/-- The random picks of a run are the draws that hit a peer in use. -/
theorem count_randomPick_exec {es : List PeerCall} (htries : s.pc.data.tries ≤ 5)
    (hexec : exec peerCallStep s es = some t) :
    t.served.count .randomPick = s.served.count .randomPick + es.countP DrawsUp := by
  induction es generalizing s with
  | nil =>
    obtain rfl := Option.some.inj hexec
    rfl
  | cons e es ih =>
    obtain ⟨u, hstep, hrest⟩ := Option.bind_eq_some_iff.mp hexec
    obtain ⟨hkeep, hserved⟩ := peerCallStep_cases htries hstep
    rw [ih (hkeep ▸ htries) hrest, hserved, List.count_append, List.countP_cons]
    split
    · rw [List.count_singleton_self]
      omega
    · rw [List.count_singleton, if_neg (by decide)]
      rfl

/-- **No bound.** The random picks of a request are bounded exactly when at most six of its random
numbers hit a peer in use. -/
theorem random_picks_bounded_iff {pcalloc roundRobin : Bool} {pc : NgxPeerConnection}
    {es : List PeerCall} (hinit : ngxHttpUpstreamInitNdgBalancePeer pcalloc roundRobin = some pc)
    (hexec : exec peerCallStep ⟨pc, []⟩ es = some t) :
    PicksBounded t.served ↔ es.countP DrawsUp ≤ 6 := by
  have htries : pc.data.tries ≤ 5 := by
    cases pcalloc <;> cases roundRobin <;> cases hinit
    decide
  rw [picksBounded_iff, count_randomPick_exec htries hexec]
  exact iff_of_eq (congrArg (· ≤ 6) (Nat.zero_add _))

/-- A call that finds two peers in use. -/
def callTwoPeers (draw : ℕ) : PeerCall where
  peers := ⟨false, [⟨1, 16, ⟨1, 64⟩, false⟩, ⟨2, 16, ⟨1, 65⟩, false⟩]⟩
  conns := fun _ => 0
  draw := draw
  answer := some 1

/-- Two calls, both served by a random pick. -/
theorem random_picks_bounded_two : ∃ pc t,
    ngxHttpUpstreamInitNdgBalancePeer true true = some pc ∧
      exec peerCallStep ⟨pc, []⟩ [callTwoPeers 0, callTwoPeers 3] = some t ∧
      PicksBounded t.served := by
  have hinit : ngxHttpUpstreamInitNdgBalancePeer true true =
      some ⟨.ndgBalance, ⟨⟨none, []⟩, 0⟩, false, none, 0, 0, none⟩ := rfl
  have hexec : ∃ t, exec peerCallStep ⟨⟨.ndgBalance, ⟨⟨none, []⟩, 0⟩, false, none, 0, 0, none⟩, []⟩
      [callTwoPeers 0, callTwoPeers 3] = some t := ⟨_, rfl⟩
  obtain ⟨t, ht⟩ := hexec
  exact ⟨_, t, hinit, ht, (random_picks_bounded_iff hinit ht).mpr (by decide)⟩

/-- The seventh call of a request is a random pick like the six before it. -/
theorem seventh_random_pick : ∃ pc t,
    ngxHttpUpstreamInitNdgBalancePeer true true = some pc ∧
      exec peerCallStep ⟨pc, []⟩ (List.replicate 7 (callTwoPeers 0)) = some t ∧
      ¬ PicksBounded t.served := by
  refine ⟨_, _, rfl, rfl, fun h => ?_⟩
  exact absurd h.atMost (by decide)

end NgxNdg
