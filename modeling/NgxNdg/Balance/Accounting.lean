import NgxNdg.Balance.Model
import NgxNdg.Lib.Run

/-!
# Connection accounting

The `conns` counters are a ledger of the outstanding attempts. The round robin keeps it
balanced; a random pick enters an attempt without raising the counter that the release
lowers again, so a run is balanced exactly when every attempt it makes was delegated.

## Main definitions

- `ConnsBalanced`: every `conns` counter is the number of attempts on its peer
- `Delegated`: the call for a peer is answered by the round robin
-/

namespace NgxNdg

open Ledger Transition

/-- Every counter is the number of the outstanding attempts on its peer; so none is below
zero, where the unsigned counter of the code would have wrapped. -/
def ConnsBalanced (s : BalanceState) : Prop :=
  Balanced Prod.snd s.conns s.attempts ∧ ∀ i, 0 ≤ s.conns i

/-- The call for a peer reaches the round robin: the tries are used up, the peer is single, or
the peer drawn is down. -/
def Delegates (peers : NgxHttpUpstreamRrPeers) (draw : ℕ) (pc : NgxPeerConnection) : Prop :=
  pc.data.tries > 5 ∨ peers.single ∨
    ∃ p, peers.peer[draw % peers.peer.length]? = some p ∧ p.down

instance (peers : NgxHttpUpstreamRrPeers) (draw : ℕ) (pc : NgxPeerConnection) :
    Decidable (Delegates peers draw pc) :=
  inferInstanceAs (Decidable (_ ∨ _ ∨ ∃ p ∈ peers.peer[draw % peers.peer.length]?, p.down = true))

/-- A step that asks for a peer is delegated. -/
def Delegated (peers : NgxHttpUpstreamRrPeers) (s : BalanceState) : BalanceEvent → Prop
  | .get r draw _ => ∀ pc, s.peer r = some pc → Delegates peers draw pc
  | _ => True

/-- What the balance rests on: requests use the get of the module, have at most one attempt,
and `rrp->current` is the peer of that attempt. -/
structure BalanceInv (s : BalanceState) : Prop where
  balanced : Balanced Prod.snd s.conns s.attempts
  get : ∀ r pc, s.peer r = some pc → pc.get = .ndgBalance
  current : ∀ a ∈ s.attempts, ∃ pc, s.peer a.1 = some pc ∧ pc.data.rrp.current = some a.2
  unique : (s.attempts.map Prod.fst).Nodup

theorem BalanceInv.connsBalanced {s : BalanceState} (h : BalanceInv s) : ConnsBalanced s :=
  ⟨h.balanced, h.balanced.nonneg⟩

variable {peers : NgxHttpUpstreamRrPeers} {s t : BalanceState}

/-- The answer to a call for a peer: busy, or a peer whose connection is counted when the call
was delegated, and is not when it was not. -/
def PeerAnswer (delegated : Prop) (conns conns' : ℕ → ℤ) (pc : NgxPeerConnection) (rc : ℤ) :
    Prop :=
  (delegated ∧ rc = ngxBusy ∧ conns' = conns) ∨
    ∃ i, rc = ngxOk ∧ pc.data.rrp.current = some i ∧
      ((delegated ∧ conns' = bump conns i 1) ∨ (¬ delegated ∧ conns' = conns))

/-- What the round robin does with its answer. -/
theorem roundRobin_cases {answer : Option ℕ} {conns conns' : ℕ → ℤ} {pc pc' : NgxPeerConnection}
    {rc : ℤ} (h : ngxHttpUpstreamGetRoundRobinPeer peers answer conns pc = some (conns', pc', rc)) :
    pc'.get = pc.get ∧ pc'.data.tries = pc.data.tries ∧
      ((rc = ngxBusy ∧ answer = none ∧ conns' = conns ∧
          pc'.data.rrp.tried = pc.data.rrp.tried) ∨
        ∃ i, rc = ngxOk ∧ pc'.data.rrp.current = some i ∧ answer = some i ∧
          conns' = bump conns i 1 ∧ pc'.data.rrp.tried = i :: pc.data.rrp.tried) := by
  cases answer with
  | none =>
    simp only [ngxHttpUpstreamGetRoundRobinPeer, Option.some.injEq, Prod.mk.injEq] at h
    obtain ⟨rfl, rfl, rfl⟩ := h
    exact ⟨rfl, rfl, .inl ⟨rfl, rfl, rfl, rfl⟩⟩
  | some i =>
    obtain ⟨p, _, hp⟩ := Option.map_eq_some_iff.mp h
    simp only [Prod.mk.injEq] at hp
    obtain ⟨rfl, rfl, rfl⟩ := hp
    exact ⟨rfl, rfl, .inr ⟨i, rfl, rfl, rfl, rfl, rfl⟩⟩

/-- A call that is delegated is one of the round robin; any other hands out the peer drawn. -/
theorem getPeer_cases {draw : ℕ} {answer : Option ℕ} {conns conns' : ℕ → ℤ}
    {pc pc' : NgxPeerConnection} {rc : ℤ}
    (h : ngxHttpUpstreamGetNdgBalancePeer peers draw answer conns pc = some (conns', pc', rc)) :
    (Delegates peers draw pc ∧ ∃ pc₁,
      ngxHttpUpstreamGetRoundRobinPeer peers answer conns pc₁ = some (conns', pc', rc) ∧
        pc₁.get = pc.get ∧ pc₁.data = pc.data) ∨
    (¬ Delegates peers draw pc ∧ pc'.get = pc.get ∧ rc = ngxOk ∧ conns' = conns ∧
      pc'.data.rrp.current = some (draw % peers.peer.length) ∧
      pc'.data.tries = pc.data.tries ∧ pc'.data.rrp.tried = pc.data.rrp.tried) := by
  unfold ngxHttpUpstreamGetNdgBalancePeer at h
  by_cases hguard : pc.data.tries > 5 ∨ peers.single
  · rw [if_pos hguard] at h
    exact .inl ⟨hguard.imp_right .inl, pc, h, rfl, rfl⟩
  rw [if_neg hguard] at h
  cases hpeer : peers.peer[draw % peers.peer.length]? with
  | none =>
    simp only [hpeer] at h
    cases h
  | some p =>
    simp only [hpeer] at h
    split at h
    · next hdown => exact .inl ⟨.inr (.inr ⟨p, hpeer, hdown⟩), _, h, rfl, rfl⟩
    · next hdown =>
      simp only [Option.some.injEq, Prod.mk.injEq] at h
      obtain ⟨rfl, rfl, rfl⟩ := h
      refine .inr ⟨?_, rfl, rfl, rfl, rfl, rfl, rfl⟩
      rintro (htries | hsingle | ⟨q, hq, hqdown⟩)
      · exact hguard (.inl htries)
      · exact hguard (.inr hsingle)
      · rw [hpeer] at hq
        exact hdown (Option.some.inj hq ▸ hqdown)

theorem getPeer_answer {draw : ℕ} {answer : Option ℕ} {conns conns' : ℕ → ℤ}
    {pc pc' : NgxPeerConnection} {rc : ℤ}
    (h : ngxHttpUpstreamGetNdgBalancePeer peers draw answer conns pc = some (conns', pc', rc)) :
    pc'.get = pc.get ∧ PeerAnswer (Delegates peers draw pc) conns conns' pc' rc := by
  obtain ⟨hd, pc₁, hcall, hget, -⟩ | ⟨hnot, hget, hok, hconns, hcurrent, -⟩ := getPeer_cases h
  · obtain ⟨hget', -, ⟨hbusy, -, hconns, -⟩ | ⟨i, hok, hcurrent, -, hconns, -⟩⟩ :=
      roundRobin_cases hcall
    · exact ⟨hget'.trans hget, .inl ⟨hd, hbusy, hconns⟩⟩
    · exact ⟨hget'.trans hget, .inr ⟨i, hok, hcurrent, .inl ⟨hd, hconns⟩⟩⟩
  · exact ⟨hget, .inr ⟨_, hok, hcurrent, .inr ⟨hnot, hconns⟩⟩⟩

theorem balance_init_cases {r : ℕ} {pcalloc roundRobin : Bool}
    (h : balanceStep peers s (.init r pcalloc roundRobin) = some t) :
    s.peer r = none ∧ ∃ pc : NgxPeerConnection, pc.get = .ndgBalance ∧
      t = { s with peer := Function.update s.peer r (some pc) } := by
  simp only [balanceStep] at h
  cases hr : s.peer r with
  | some pc =>
    simp only [hr] at h
    cases h
  | none =>
    unfold ngxHttpUpstreamInitNdgBalancePeer at h
    cases pcalloc <;> cases roundRobin <;> simp only [hr] at h <;> try cases h
    exact ⟨rfl, _, rfl, rfl⟩

theorem balance_get_cases {r draw : ℕ} {answer : Option ℕ} (hinv : BalanceInv s)
    (h : balanceStep peers s (.get r draw answer) = some t) :
    (∀ a ∈ s.attempts, a.1 ≠ r) ∧ ∃ pc pc', s.peer r = some pc ∧ pc'.get = .ndgBalance ∧
      ((Delegates peers draw pc ∧ t = { s with peer := Function.update s.peer r (some pc') }) ∨
        ∃ i, pc'.data.rrp.current = some i ∧
          ((Delegates peers draw pc ∧ t.conns = bump s.conns i 1) ∨
            (¬ Delegates peers draw pc ∧ t.conns = s.conns)) ∧
          t.peer = Function.update s.peer r (some pc') ∧ t.attempts = (r, i) :: s.attempts) := by
  simp only [balanceStep] at h
  cases hr : s.peer r with
  | none =>
    simp only [hr] at h
    cases h
  | some pc =>
    cases hfree : s.attempts.find? fun a => a.1 == r with
    | some a =>
      simp only [hr, hfree] at h
      cases h
    | none =>
      have hget := hinv.get r pc hr
      simp only [hr, hfree, hget] at h
      have hnone : ∀ a ∈ s.attempts, a.1 ≠ r := by
        intro a ha heq
        exact List.find?_eq_none.mp hfree a ha (beq_iff_eq.mpr heq)
      refine ⟨hnone, pc, ?_⟩
      cases hcall : ngxHttpUpstreamGetNdgBalancePeer peers draw answer s.conns pc with
      | none =>
        simp only [hcall] at h
        cases h
      | some result =>
        obtain ⟨conns', pc', rc⟩ := result
        simp only [hcall, Option.some.injEq] at h
        obtain rfl := h
        obtain ⟨hget', ⟨hd, rfl, rfl⟩ | ⟨i, rfl, hcur, hconns⟩⟩ := getPeer_answer hcall
        · exact ⟨pc', rfl, hget'.trans hget, .inl ⟨hd, rfl⟩⟩
        · exact ⟨pc', rfl, hget'.trans hget, .inr ⟨i, hcur, hconns, rfl, by simp [hcur]⟩⟩

theorem balance_free_cases {r : ℕ} (hinv : BalanceInv s)
    (h : balanceStep peers s (.free r) = some t) :
    ∃ i, (r, i) ∈ s.attempts ∧
      t = { s with conns := bump s.conns i (-1), attempts := s.attempts.erase (r, i) } := by
  simp only [balanceStep] at h
  cases hr : s.peer r with
  | none =>
    simp only [hr] at h
    cases h
  | some pc =>
    cases hfree : s.attempts.find? fun a => a.1 == r with
    | none =>
      simp only [hr, hfree] at h
      cases h
    | some a =>
      simp only [hr, hfree, Option.some.injEq] at h
      obtain rfl := h
      have hmem : a ∈ s.attempts := List.mem_of_find?_eq_some hfree
      obtain ⟨r', i⟩ := a
      have hkey := List.find?_some hfree
      obtain rfl : r' = r := beq_iff_eq.mp hkey
      obtain ⟨pc₁, hpc₁, hcur⟩ := hinv.current _ hmem
      obtain rfl : pc₁ = pc := Option.some.inj (hpc₁.symm.trans hr)
      refine ⟨i, hmem, ?_⟩
      simp only [ngxHttpUpstreamFreeRoundRobinPeer, hcur]

theorem BalanceInv.init_step {r : ℕ} {pcalloc roundRobin : Bool} (h : BalanceInv s)
    (hstep : balanceStep peers s (.init r pcalloc roundRobin) = some t) : BalanceInv t := by
  obtain ⟨hr, pc, hget, rfl⟩ := balance_init_cases hstep
  refine ⟨h.balanced, ?_, ?_, h.unique⟩
  · intro r' pc' hr'
    by_cases heq : r' = r
    · subst heq
      simp only [Function.update_self, Option.some.injEq] at hr'
      exact hr' ▸ hget
    · simp only [Function.update_of_ne heq] at hr'
      exact h.get r' pc' hr'
  · intro a ha
    obtain ⟨pc', hpc', hcur⟩ := h.current a ha
    have hne : a.1 ≠ r := by
      rintro rfl
      rw [hr] at hpc'
      cases hpc'
    exact ⟨pc', by simpa [hne] using hpc', hcur⟩

theorem BalanceInv.get_step {r draw : ℕ} {answer : Option ℕ} (h : BalanceInv s)
    (hok : Delegated peers s (.get r draw answer))
    (hstep : balanceStep peers s (.get r draw answer) = some t) : BalanceInv t := by
  obtain ⟨hfree, pc, pc', hpc, hget, hcases⟩ := balance_get_cases h hstep
  -- the peer data of the other requests is untouched
  have getUpdate : ∀ r' p, Function.update s.peer r (some pc') r' = some p →
      p.get = .ndgBalance := by
    intro r' p hp
    by_cases heq : r' = r
    · subst heq
      simp only [Function.update_self, Option.some.injEq] at hp
      exact hp ▸ hget
    · simp only [Function.update_of_ne heq] at hp
      exact h.get r' p hp
  have currentUpdate : ∀ a ∈ s.attempts, ∃ p, Function.update s.peer r (some pc') a.1 = some p ∧
      p.data.rrp.current = some a.2 := by
    intro a ha
    rw [Function.update_of_ne (hfree a ha)]
    exact h.current a ha
  obtain ⟨_, rfl⟩ | ⟨i, hcur, ⟨_, hconns⟩ | ⟨hrandom, _⟩, hpeer, hattempts⟩ := hcases
  · exact ⟨h.balanced, getUpdate, currentUpdate, h.unique⟩
  · have hnew : r ∉ s.attempts.map Prod.fst := by
      intro hmem
      obtain ⟨a, ha, har⟩ := List.mem_map.mp hmem
      exact hfree a ha har
    refine ⟨?_, hpeer ▸ getUpdate, ?_, ?_⟩
    · rw [hconns, hattempts]
      exact h.balanced.acquire (r, i)
    · rw [hpeer, hattempts]
      refine List.forall_mem_cons.mpr ⟨⟨pc', ?_, hcur⟩, currentUpdate⟩
      exact Function.update_self ..
    · rw [hattempts, List.map_cons]
      exact List.nodup_cons.mpr ⟨hnew, h.unique⟩
  · exact absurd (hok pc hpc) hrandom

theorem BalanceInv.free_step {r : ℕ} (h : BalanceInv s)
    (hstep : balanceStep peers s (.free r) = some t) : BalanceInv t := by
  obtain ⟨i, hmem, rfl⟩ := balance_free_cases h hstep
  refine ⟨h.balanced.release hmem, h.get, ?_, ?_⟩
  · exact fun a ha => h.current a (List.mem_of_mem_erase ha)
  · exact h.unique.sublist (List.erase_sublist.map Prod.fst)

/-- A random pick enters its attempt without a connection. -/
theorem BalanceInv.random_step {e : BalanceEvent} (h : BalanceInv s)
    (hrandom : ¬ Delegated peers s e) (hstep : balanceStep peers s e = some t) :
    ¬ ConnsBalanced t := by
  cases e with
  | init r pcalloc roundRobin => exact absurd trivial hrandom
  | free r => exact absurd trivial hrandom
  | get r draw answer =>
    obtain ⟨_, pc, pc', hpc, _, hcases⟩ := balance_get_cases h hstep
    have hnot : ¬ Delegates peers draw pc := by
      intro hd
      refine hrandom fun pc₁ hpc₁ => ?_
      exact Option.some.inj (hpc.symm.trans hpc₁) ▸ hd
    obtain ⟨hd, _⟩ | ⟨i, _, ⟨hd, _⟩ | ⟨_, hconns⟩, _, hattempts⟩ := hcases
    · exact absurd hd hnot
    · exact absurd hd hnot
    · intro hbal
      have hbal' := hbal.1
      rw [hconns, hattempts] at hbal'
      exact h.balanced.not_cons (r, i) hbal'

theorem BalanceInv.init : BalanceInv .init := by
  refine ⟨balanced_nil, ?_, ?_, List.nodup_nil⟩
  · intro r pc hr
    cases hr
  · intro a ha
    cases ha

/-- **Connection accounting.** In every state of a run each counter is the number of the
outstanding attempts on its peer, exactly when no attempt of the run was a random pick. -/
theorem conns_balanced_iff (peers : NgxHttpUpstreamRrPeers) (es : List BalanceEvent) :
    Along (balanceStep peers) ConnsBalanced .init es ↔
      Meets (balanceStep peers) (Delegated peers) .init es := by
  refine along_iff_meets (I := BalanceInv) ?_ ?_ ?_ .init es
  · intro s e t h hok hstep
    cases e with
    | init r pcalloc roundRobin => exact h.init_step hstep
    | get r draw answer => exact h.get_step hok hstep
    | free r => exact h.free_step hstep
  · exact fun s h => h.connsBalanced
  · exact fun s e t h hrandom hstep => h.random_step hrandom hstep

/-- Two peers that are up, and one attempt at random: its release wraps the counter. -/
theorem conns_wrap_after_random_pick :
    ¬ Along (balanceStep ⟨false, [⟨1, 16, ⟨0, 0⟩, false⟩, ⟨2, 16, ⟨0, 0⟩, false⟩]⟩) ConnsBalanced
      .init [.init 0 true true, .get 0 0 none, .free 0] := by
  intro h
  have hwrapped := ((((h.2 _ rfl).2 _ rfl).2 _ rfl : ConnsBalanced _)).2 0
  exact absurd hwrapped (by decide)

end NgxNdg
