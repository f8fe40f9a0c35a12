import Mathlib.Data.Int.CardIntervalMod
import NgxNdg.Balance.Tries

/-!
# The choice of a peer

A random pick looks at `down` and takes the address of the peer over; a call that is delegated
leaves both to the round robin. So the attempts of all requests are on peers in use exactly when
the round robin answers with none that is down. The peer of a random pick is the random number
modulo the number of peers, which favours the peers at the head of the list by one number.

## Main definitions

- `OnPeer`, `AttemptsUp`: an attempt is on a peer of the list, and all are on peers in use
- `AnswersUp`: the round robin answers with a peer in use
- `randomPick`: the peer that a random number picks
-/

namespace NgxNdg

open Transition

/-- The connection has the address of the peer, and is to be opened. -/
structure Addresses (pc : NgxPeerConnection) (p : NgxHttpUpstreamRrPeer) : Prop where
  sockaddr : pc.sockaddr = p.sockaddr
  socklen : pc.socklen = p.socklen
  name : pc.name = some p.name
  cached : pc.cached = false
  connection : pc.connection = none

/-- The attempt `a` is on a peer of the list, which is current for its request and has the address
of its connection. -/
def OnPeer (peers : NgxHttpUpstreamRrPeers) (s : BalanceState) (a : ℕ × ℕ) : Prop :=
  ∃ pc p, s.peer a.1 = some pc ∧ pc.data.rrp.current = some a.2 ∧ peers.peer[a.2]? = some p ∧
    Addresses pc p

/-- The list has a peer `i`, which is not down. -/
def PeerUp (peers : NgxHttpUpstreamRrPeers) (i : ℕ) : Prop :=
  ∃ p, peers.peer[i]? = some p ∧ p.down = false

/-- The outstanding attempts are on peers in use. -/
def AttemptsUp (peers : NgxHttpUpstreamRrPeers) (s : BalanceState) : Prop :=
  ∀ a ∈ s.attempts, OnPeer peers s a ∧ PeerUp peers a.2

/-- A call that is delegated is answered with a peer in use. -/
def AnswersUp (peers : NgxHttpUpstreamRrPeers) (s : BalanceState) : BalanceEvent → Prop
  | .get r draw answer =>
    ∀ pc, s.peer r = some pc → Delegates peers draw pc → ∀ i, answer = some i → PeerUp peers i
  | _ => True

/-- What the attempts rest on: requests use the get of the module. -/
structure ChoiceInv (peers : NgxHttpUpstreamRrPeers) (s : BalanceState) : Prop where
  get : ∀ r pc, s.peer r = some pc → pc.get = .ndgBalance
  attempts : AttemptsUp peers s

variable {peers : NgxHttpUpstreamRrPeers} {s t : BalanceState}

theorem roundRobin_addresses {answer : Option ℕ} {conns conns' : ℕ → ℤ}
    {pc pc' : NgxPeerConnection} {rc : ℤ}
    (h : ngxHttpUpstreamGetRoundRobinPeer peers answer conns pc = some (conns', pc', rc)) :
    (rc = ngxBusy ∧ answer = none) ∨
      ∃ i p, rc = ngxOk ∧ answer = some i ∧ pc'.data.rrp.current = some i ∧
        peers.peer[i]? = some p ∧ Addresses pc' p := by
  cases answer with
  | none =>
    obtain ⟨-, hrest⟩ := Prod.mk.inj (Option.some.inj h)
    exact .inl ⟨(Prod.mk.inj hrest).2.symm, rfl⟩
  | some i =>
    obtain ⟨p, hp, hresult⟩ := Option.map_eq_some_iff.mp h
    obtain ⟨-, hrest⟩ := Prod.mk.inj hresult
    obtain ⟨rfl, rfl⟩ := Prod.mk.inj hrest
    exact .inr ⟨i, p, rfl, rfl, rfl, hp, ⟨rfl, rfl, rfl, rfl, rfl⟩⟩

/-- A call that hands out a peer has its address, whether it asks the round robin or finds the
peer drawn in use. -/
theorem getPeer_addresses {draw : ℕ} {answer : Option ℕ} {conns conns' : ℕ → ℤ}
    {pc pc' : NgxPeerConnection} {rc : ℤ}
    (h : ngxHttpUpstreamGetNdgBalancePeer peers draw answer conns pc = some (conns', pc', rc)) :
    (rc = ngxBusy ∧ Delegates peers draw pc ∧ answer = none) ∨
      ∃ i p, rc = ngxOk ∧ pc'.data.rrp.current = some i ∧ peers.peer[i]? = some p ∧
        Addresses pc' p ∧
        ((Delegates peers draw pc ∧ answer = some i) ∨
          (¬ Delegates peers draw pc ∧ i = draw % peers.peer.length ∧ p.down = false)) := by
  obtain ⟨hd, pc₁, hcall, -⟩ | ⟨hnot, -⟩ := getPeer_cases h
  · obtain ⟨hbusy, hnone⟩ | ⟨i, p, hok, hanswer, hcurrent, hp, haddr⟩ := roundRobin_addresses hcall
    · exact .inl ⟨hbusy, hd, hnone⟩
    · exact .inr ⟨i, p, hok, hcurrent, hp, haddr, .inl ⟨hd, hanswer⟩⟩
  · unfold ngxHttpUpstreamGetNdgBalancePeer at h
    have hguard : ¬ (pc.data.tries > 5 ∨ peers.single) := fun hguard =>
      hnot (hguard.imp_right .inl)
    rw [if_neg hguard] at h
    cases hpeer : peers.peer[draw % peers.peer.length]? with
    | none =>
      simp only [hpeer] at h
      cases h
    | some p =>
      have hup : ¬ p.down := fun hdown => hnot (.inr (.inr ⟨p, hpeer, hdown⟩))
      simp only [hpeer, if_neg hup, Option.some.injEq, Prod.mk.injEq] at h
      obtain ⟨rfl, rfl, rfl⟩ := h
      exact .inr ⟨_, p, rfl, rfl, hpeer, ⟨rfl, rfl, rfl, rfl, rfl⟩,
        .inr ⟨hnot, rfl, Bool.eq_false_iff.mpr hup⟩⟩

/-- A call for a peer leaves the request without an attempt, or with one on the peer handed
out. -/
theorem balance_get_onPeer {r draw : ℕ} {answer : Option ℕ}
    (hget : ∀ r pc, s.peer r = some pc → pc.get = .ndgBalance)
    (h : balanceStep peers s (.get r draw answer) = some t) :
    (∀ a ∈ s.attempts, a.1 ≠ r) ∧ ∃ pc pc', s.peer r = some pc ∧ pc'.get = .ndgBalance ∧
      t.peer = Function.update s.peer r (some pc') ∧
      ((t.attempts = s.attempts ∧ answer = none) ∨
        ∃ i, t.attempts = (r, i) :: s.attempts ∧ OnPeer peers t (r, i) ∧
          ((Delegates peers draw pc ∧ answer = some i) ∨
            (¬ Delegates peers draw pc ∧ PeerUp peers i))) := by
  simp only [balanceStep] at h
  cases hr : s.peer r with
  | none =>
    simp only [hr] at h
    cases h
  | some pc =>
    cases hfree : s.attempts.find? fun a => a.1 == r with
    | some a =>
      simp only [hr, hfree] at h
      cases h
    | none =>
      simp only [hr, hfree, hget r pc hr] at h
      have hnone : ∀ a ∈ s.attempts, a.1 ≠ r := by
        intro a ha heq
        exact List.find?_eq_none.mp hfree a ha (beq_iff_eq.mpr heq)
      refine ⟨hnone, pc, ?_⟩
      cases hcall : ngxHttpUpstreamGetNdgBalancePeer peers draw answer s.conns pc with
      | none =>
        simp only [hcall] at h
        cases h
      | some result =>
        obtain ⟨conns', pc', rc⟩ := result
        simp only [hcall, Option.some.injEq] at h
        obtain rfl := h
        have hkeep : pc'.get = .ndgBalance := (getPeer_answer hcall).1.trans (hget r pc hr)
        refine ⟨pc', rfl, hkeep, rfl, ?_⟩
        obtain ⟨rfl, -, hnone⟩ | ⟨i, p, rfl, hcurrent, hp, haddr, hpick⟩ := getPeer_addresses hcall
        · exact .inl ⟨rfl, hnone⟩
        · refine .inr ⟨i, by simp [hcurrent], ⟨pc', p, ?_, hcurrent, hp, haddr⟩, ?_⟩
          · exact Function.update_self ..
          · exact hpick.imp_right fun hpicked => ⟨hpicked.1, p, hp, hpicked.2.2⟩

/-- An attempt of another request stays where it is when a request gets a peer connection. -/
theorem OnPeer.update {r : ℕ} {a : ℕ × ℕ} {pc : NgxPeerConnection} (h : OnPeer peers s a)
    (hne : a.1 ≠ r) (hpeer : t.peer = Function.update s.peer r (some pc)) : OnPeer peers t a := by
  obtain ⟨pc', p, hpc', hrest⟩ := h
  refine ⟨pc', p, ?_, hrest⟩
  rw [hpeer, Function.update_of_ne hne]
  exact hpc'

theorem ChoiceInv.get_update {r : ℕ} {pc : NgxPeerConnection} (h : ChoiceInv peers s)
    (hget : pc.get = .ndgBalance) (hpeer : t.peer = Function.update s.peer r (some pc)) :
    ∀ r' pc', t.peer r' = some pc' → pc'.get = .ndgBalance := by
  intro r' pc' hr'
  rw [hpeer] at hr'
  by_cases heq : r' = r
  · subst heq
    rw [Function.update_self] at hr'
    exact Option.some.inj hr' ▸ hget
  · rw [Function.update_of_ne heq] at hr'
    exact h.get r' pc' hr'

theorem ChoiceInv.step {e : BalanceEvent} (h : ChoiceInv peers s) (hup : AnswersUp peers s e)
    (hstep : balanceStep peers s e = some t) : ChoiceInv peers t := by
  cases e with
  | init r pcalloc roundRobin =>
    obtain ⟨hr, pc, hget, rfl⟩ := balance_init_cases hstep
    refine ⟨h.get_update hget rfl, fun a ha => ⟨?_, (h.attempts a ha).2⟩⟩
    obtain ⟨pc', p, hpc', -⟩ := (h.attempts a ha).1
    refine @OnPeer.update _ _ _ r a pc (h.attempts a ha).1 ?_ rfl
    rintro rfl
    exact Option.some_ne_none _ (hpc'.symm.trans hr)
  | get r draw answer =>
    obtain ⟨hfree, pc, pc', hpc, hget, hpeer, hattempts⟩ := balance_get_onPeer h.get hstep
    refine ⟨h.get_update hget hpeer, ?_⟩
    have hkept : ∀ a ∈ s.attempts, OnPeer peers t a ∧ PeerUp peers a.2 := fun a ha =>
      ⟨(h.attempts a ha).1.update (hfree a ha) hpeer, (h.attempts a ha).2⟩
    obtain ⟨hsame, -⟩ | ⟨i, hnew, hon, hpick⟩ := hattempts
    · exact fun a ha => hkept a (hsame ▸ ha)
    · intro a ha
      obtain rfl | ha := List.mem_cons.mp (hnew ▸ ha)
      · refine ⟨hon, ?_⟩
        obtain ⟨hd, hanswer⟩ | ⟨-, hpeerUp⟩ := hpick
        · exact hup pc hpc hd i hanswer
        · exact hpeerUp
      · exact hkept a ha
  | free r =>
    simp only [balanceStep] at hstep
    split at hstep
    · obtain rfl := Option.some.inj hstep
      exact ⟨h.get, fun a ha => h.attempts a (List.mem_of_mem_erase ha)⟩
    · cases hstep

/-- An answer that is down enters its attempt. -/
theorem ChoiceInv.not_attemptsUp {e : BalanceEvent} (h : ChoiceInv peers s)
    (hdown : ¬ AnswersUp peers s e) (hstep : balanceStep peers s e = some t) :
    ¬ AttemptsUp peers t := by
  cases e with
  | init r pcalloc roundRobin => exact absurd trivial hdown
  | free r => exact absurd trivial hdown
  | get r draw answer =>
    obtain ⟨-, pc, pc', hpc, -, -, hattempts⟩ := balance_get_onPeer h.get hstep
    unfold AnswersUp at hdown
    push Not at hdown
    obtain ⟨pc₁, hpc₁, hd, i, hanswer, hnot⟩ := hdown
    obtain rfl : pc₁ = pc := Option.some.inj (hpc₁.symm.trans hpc)
    obtain ⟨-, hnone⟩ | ⟨j, hnew, -, ⟨-, hj⟩ | ⟨hpick, -⟩⟩ := hattempts
    · exact absurd (hanswer.symm.trans hnone) (Option.some_ne_none _)
    · obtain rfl : i = j := Option.some.inj (hanswer.symm.trans hj)
      intro hall
      exact hnot (hall (r, i) (hnew ▸ List.mem_cons_self)).2
    · exact absurd hd hpick

/-- **Attempts on peers in use.** In every state of a run of any number of requests each
outstanding attempt is on a peer of the list that is not down, with the address of that peer,
exactly when no call that was delegated was answered with another one. -/
theorem attempts_up_iff (peers : NgxHttpUpstreamRrPeers) (es : List BalanceEvent) :
    Along (balanceStep peers) (AttemptsUp peers) .init es ↔
      Meets (balanceStep peers) (AnswersUp peers) .init es := by
  apply along_iff_meets (I := ChoiceInv peers)
  · exact fun s e t h hup hstep => h.step hup hstep
  · exact fun s h => h.attempts
  · exact fun s e t h hdown hstep => h.not_attemptsUp hdown hstep
  · exact ⟨fun r pc hr => absurd hr (Option.some_ne_none pc).symm, fun a ha => nomatch ha⟩

-- ════════════════════════════════════════════════════════════════════════
-- The random numbers
-- ════════════════════════════════════════════════════════════════════════

/-- The peer that a random number picks, `none` when the call is delegated: the round robin is
busy. -/
def randomPick (peers : NgxHttpUpstreamRrPeers) (conns : ℕ → ℤ) (pc : NgxPeerConnection)
    (draw : ℕ) : Option ℕ :=
  match ngxHttpUpstreamGetNdgBalancePeer peers draw none conns pc with
  | none => none
  | some (_, pc, rc) => if rc = ngxOk then pc.data.rrp.current else none

/-- A random number picks the peer it is modulo the number of peers, if that is not down. -/
theorem randomPick_eq_some_iff {conns : ℕ → ℤ} {pc : NgxPeerConnection} {draw i : ℕ}
    (htries : pc.data.tries ≤ 5) (hmany : peers.single = false) :
    randomPick peers conns pc draw = some i ↔
      draw % peers.peer.length = i ∧ PeerUp peers i := by
  have hguard : ¬ (pc.data.tries > 5 ∨ peers.single) := by
    rw [hmany]
    exact not_or.mpr ⟨UInt8.not_lt.mpr htries, Bool.false_ne_true⟩
  unfold randomPick ngxHttpUpstreamGetNdgBalancePeer
  rw [if_neg hguard]
  cases hpeer : peers.peer[draw % peers.peer.length]? with
  | none =>
    simp only [hpeer]
    refine iff_of_false (Option.some_ne_none i).symm ?_
    rintro ⟨rfl, p, hp, -⟩
    exact absurd (hpeer.symm.trans hp) (Option.some_ne_none p).symm
  | some p =>
    simp only [hpeer]
    cases hdown : p.down with
    | true =>
      refine iff_of_false (fun h => nomatch h) ?_
      rintro ⟨rfl, q, hq, hup⟩
      obtain rfl : p = q := Option.some.inj (hpeer.symm.trans hq)
      exact Bool.noConfusion (hdown.symm.trans hup)
    | false =>
      constructor
      · intro h
        obtain rfl := Option.some.inj h
        exact ⟨rfl, p, hpeer, hdown⟩
      · rintro ⟨rfl, -⟩
        rfl

/-- **Even picks.** Whatever calls a request has made, among the first `n` random numbers those
that pick a peer in use are as many for every peer, up to one number: the quotient of `n` by the
number of peers, and one more for the peers below the remainder. -/
theorem random_picks_even {pcalloc roundRobin : Bool} {pc : NgxPeerConnection}
    {es : List PeerCall} {s : PeerCalls}
    (hinit : ngxHttpUpstreamInitNdgBalancePeer pcalloc roundRobin = some pc)
    (hexec : exec peerCallStep ⟨pc, []⟩ es = some s) (hmany : peers.single = false) {i : ℕ}
    (hup : PeerUp peers i) (conns : ℕ → ℤ) (n : ℕ) :
    Nat.count (fun draw => randomPick peers conns s.pc draw = some i) n =
      n / peers.peer.length + if i < n % peers.peer.length then 1 else 0 := by
  have htries : s.pc.data.tries ≤ 5 := by
    refine exec_invariant (I := fun s => s.pc.data.tries ≤ 5) (fun s e t h hstep => ?_) ?_ hexec
    · rw [(peerCallStep_cases h hstep).1]
      exact h
    · cases pcalloc <;> cases roundRobin <;> cases hinit
      decide
  have hlt : i < peers.peer.length := by
    obtain ⟨p, hp, -⟩ := hup
    exact (List.getElem?_eq_some_iff.mp hp).1
  have hpick : ∀ draw, randomPick peers conns s.pc draw = some i ↔
      draw ≡ i [MOD peers.peer.length] := by
    intro draw
    rw [randomPick_eq_some_iff htries hmany, Nat.ModEq, Nat.mod_eq_of_lt hlt]
    exact and_iff_left hup
  have hcount := Nat.count_modEq_card n (Nat.zero_lt_of_lt hlt) i
  rw [Nat.mod_eq_of_lt hlt] at hcount
  rw [← hcount, Nat.count_eq_card_filter_range, Nat.count_eq_card_filter_range]
  exact congrArg Finset.card (Finset.filter_congr fun draw _ => hpick draw)

/-- Three peers of which the second is down, and the `2 ^ 31` numbers of `ngx_random`. -/
theorem random_picks_even_three : ∃ pc s,
    ngxHttpUpstreamInitNdgBalancePeer true true = some pc ∧
      exec peerCallStep ⟨pc, []⟩ [callTwoPeers 0] = some s ∧
      Nat.count (fun draw => randomPick ⟨false, [⟨1, 16, ⟨1, 64⟩, false⟩, ⟨2, 16, ⟨1, 65⟩, true⟩,
        ⟨3, 16, ⟨1, 66⟩, false⟩]⟩ (fun _ => 0) s.pc draw = some 2) (2 ^ 31) = 715827882 := by
  have hinit : ngxHttpUpstreamInitNdgBalancePeer true true =
      some ⟨.ndgBalance, ⟨⟨none, []⟩, 0⟩, false, none, 0, 0, none⟩ := rfl
  have hexec : ∃ s, exec peerCallStep ⟨⟨.ndgBalance, ⟨⟨none, []⟩, 0⟩, false, none, 0, 0, none⟩, []⟩
      [callTwoPeers 0] = some s := ⟨_, rfl⟩
  obtain ⟨s, hs⟩ := hexec
  exact ⟨_, s, hinit, hs, random_picks_even hinit hs rfl ⟨_, rfl, rfl⟩ (fun _ => 0) (2 ^ 31)⟩

end NgxNdg
