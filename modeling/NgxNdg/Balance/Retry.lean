import NgxNdg.Balance.Accounting

/-!
# Retries within a request

A request whose attempts fail asks for a peer again and again. The round robin remembers the
peers it has answered with in `rrp->tried`; the random pick neither looks there nor leaves a
bit, so both ways can hand a peer out twice while others are untried.

The peers handed out are those drawn at random and those with a bit in `rrp->tried`, and the
round robin answers with no peer that has its bit: its answer can only repeat a random pick. So
the condition of the law speaks of the draws and of the bitmap, not of the peers handed out.

The number of attempts of a request is left open; that nginx bounds it by the number of peers
only shortens the runs.

## Main definitions

- `retryStep`: one attempt of a request, which fails
- `NoEarlyRetry`: the last peer handed out is new, or no peer is left untried
- `DrawsFresh`: what the draw and the answer of the round robin must avoid for that
- `RetryInv`: where the peers handed out come from
-/

namespace NgxNdg

open Ledger Transition

/-- The answers the round robin can give: busy, or a peer that is not down and whose bit is not
set in `rrp->tried`. -/
def roundRobinAnswers (peers : NgxHttpUpstreamRrPeers) (pc : NgxPeerConnection)
    (answer : Option ℕ) : Bool :=
  answer.all fun i =>
    !pc.data.rrp.tried.contains i && (peers.peer[i]?).any fun p => !p.down

/-- One request and the peers; `handed` are the peers handed out so far, the last one first, and
`drawn` those of them that were picked at random. -/
structure RetryState where
  conns : ℕ → ℤ
  pc : NgxPeerConnection
  handed : List ℕ
  drawn : List ℕ

/-- The random number of an attempt, and what the round robin answers when it is asked. -/
structure Attempt where
  draw : ℕ
  answer : Option ℕ
  deriving DecidableEq

/-- An attempt: nginx asks for a peer, fails to get a response from it, and releases it. -/
def retryStep (peers : NgxHttpUpstreamRrPeers) (s : RetryState) (e : Attempt) :
    Option RetryState :=
  if !roundRobinAnswers peers s.pc e.answer then none
  else
    let drawn :=
      if Delegates peers e.draw s.pc then s.drawn else e.draw % peers.peer.length :: s.drawn
    match ngxHttpUpstreamGetNdgBalancePeer peers e.draw e.answer s.conns s.pc with
    | none => none
    | some (conns, pc, rc) =>
      if rc = ngxOk then
        some {
          conns := ngxHttpUpstreamFreeRoundRobinPeer conns pc
          pc := pc
          handed := pc.data.rrp.current.toList ++ s.handed
          drawn := drawn }
      else some { s with conns := conns, pc := pc, drawn := drawn }

/-- Some peer that is not down has not been handed out. -/
def UntriedLeft (peers : NgxHttpUpstreamRrPeers) (handed : List ℕ) : Prop :=
  ∃ j p, peers.peer[j]? = some p ∧ p.down = false ∧ j ∉ handed

/-- The last peer handed out was handed out before only if no other was left. -/
def NoEarlyRetry (peers : NgxHttpUpstreamRrPeers) (s : RetryState) : Prop :=
  ∀ i earlier, s.handed = i :: earlier → UntriedLeft peers earlier → i ∉ earlier

/-- The peer was not drawn at random, and has no bit in `rrp->tried`. -/
def RetryState.Fresh (s : RetryState) (i : ℕ) : Prop := i ∉ s.drawn ∧ i ∉ s.pc.data.rrp.tried

/-- While a fresh peer that is not down is left, the draw of a random pick hits a fresh peer, and
the round robin does not answer with a peer that was drawn at random. -/
def DrawsFresh (peers : NgxHttpUpstreamRrPeers) (s : RetryState) (e : Attempt) : Prop :=
  (∃ j p, peers.peer[j]? = some p ∧ p.down = false ∧ s.Fresh j) →
    (¬ Delegates peers e.draw s.pc → s.Fresh (e.draw % peers.peer.length)) ∧
    (Delegates peers e.draw s.pc → ∀ i, e.answer = some i → i ∉ s.drawn)

/-- A peer was handed out when it was drawn at random or the round robin has set its bit. -/
def RetryInv (s : RetryState) : Prop :=
  ∀ i, i ∈ s.handed ↔ i ∈ s.drawn ∨ i ∈ s.pc.data.rrp.tried

variable {peers : NgxHttpUpstreamRrPeers} {s t : RetryState} {e : Attempt}

theorem RetryInv.fresh_iff (h : RetryInv s) (i : ℕ) : s.Fresh i ↔ i ∉ s.handed := by
  rw [RetryState.Fresh, h i, not_or]

theorem RetryInv.untriedLeft_iff (h : RetryInv s) :
    UntriedLeft peers s.handed ↔
      ∃ j p, peers.peer[j]? = some p ∧ p.down = false ∧ s.Fresh j := by
  simp only [UntriedLeft, h.fresh_iff]

/-- The round robin answers with no peer it has answered with before: a delegated attempt
repeats a peer exactly when that was drawn at random. -/
theorem RetryInv.answer_mem_iff (h : RetryInv s) {i : ℕ}
    (hanswer : roundRobinAnswers peers s.pc (some i) = true) : i ∈ s.handed ↔ i ∈ s.drawn := by
  have hbit : i ∉ s.pc.data.rrp.tried := by
    simp only [roundRobinAnswers, Option.all_some, Bool.and_eq_true, Bool.not_eq_true',
      List.contains_eq_mem, decide_eq_false_iff_not] at hanswer
    exact hanswer.1
  rw [h i, or_iff_left hbit]

/-- The peer a call hands out, and the bits it leaves: the answer of the round robin and its bit
when it is delegated, the peer drawn and no bit when it is not. -/
theorem getPeer_picks {draw : ℕ} {answer : Option ℕ} {conns conns' : ℕ → ℤ}
    {pc pc' : NgxPeerConnection} {rc : ℤ}
    (h : ngxHttpUpstreamGetNdgBalancePeer peers draw answer conns pc = some (conns', pc', rc)) :
    (Delegates peers draw pc ∧ rc = ngxBusy ∧ answer = none ∧
        pc'.data.rrp.tried = pc.data.rrp.tried) ∨
      ∃ i, rc = ngxOk ∧ pc'.data.rrp.current = some i ∧
        ((Delegates peers draw pc ∧ answer = some i ∧
            pc'.data.rrp.tried = i :: pc.data.rrp.tried) ∨
          (¬ Delegates peers draw pc ∧ i = draw % peers.peer.length ∧
            pc'.data.rrp.tried = pc.data.rrp.tried)) := by
  obtain ⟨hd, pc₁, hcall, -, hdata⟩ | ⟨hnot, -, hok, -, hcurrent, -, htried⟩ := getPeer_cases h
  · rw [← hdata]
    obtain ⟨-, -, ⟨hbusy, hnone, -, htried⟩ | ⟨i, hok, hcurrent, hsome, -, htried⟩⟩ :=
      roundRobin_cases hcall
    · exact .inl ⟨hd, hbusy, hnone, htried⟩
    · exact .inr ⟨i, hok, hcurrent, .inl ⟨hd, hsome, htried⟩⟩
  · exact .inr ⟨_, hok, hcurrent, .inr ⟨hnot, rfl, htried⟩⟩

/-- An attempt hands out no peer when the round robin is asked and busy, and else the answer of
the round robin or the peer drawn. -/
theorem retryStep_cases (hstep : retryStep peers s e = some t) :
    roundRobinAnswers peers s.pc e.answer = true ∧
      ((Delegates peers e.draw s.pc ∧ e.answer = none ∧ t.handed = s.handed ∧
          t.drawn = s.drawn ∧ t.pc.data.rrp.tried = s.pc.data.rrp.tried) ∨
        ∃ i, t.handed = i :: s.handed ∧
          ((Delegates peers e.draw s.pc ∧ e.answer = some i ∧ t.drawn = s.drawn ∧
              t.pc.data.rrp.tried = i :: s.pc.data.rrp.tried) ∨
            (¬ Delegates peers e.draw s.pc ∧ i = e.draw % peers.peer.length ∧
              t.drawn = i :: s.drawn ∧ t.pc.data.rrp.tried = s.pc.data.rrp.tried))) := by
  simp only [retryStep] at hstep
  split at hstep
  · cases hstep
  next hanswers =>
  refine ⟨by simpa using hanswers, ?_⟩
  cases hcall : ngxHttpUpstreamGetNdgBalancePeer peers e.draw e.answer s.conns s.pc with
  | none =>
    simp only [hcall] at hstep
    cases hstep
  | some result =>
    obtain ⟨conns, pc, rc⟩ := result
    obtain ⟨hd, rfl, hnone, htried⟩ | ⟨i, rfl, hcurrent, hpick⟩ := getPeer_picks hcall
    · have hbusy : ¬ ngxBusy = ngxOk := by decide
      simp only [hcall, if_neg hbusy, if_pos hd, Option.some.injEq] at hstep
      subst hstep
      exact .inl ⟨hd, hnone, rfl, rfl, htried⟩
    · simp only [hcall, if_true, Option.some.injEq] at hstep
      subst hstep
      refine .inr ⟨i, by simp [hcurrent], ?_⟩
      obtain ⟨hd, hsome, htried⟩ | ⟨hnot, rfl, htried⟩ := hpick
      · exact .inl ⟨hd, hsome, if_pos hd, htried⟩
      · exact .inr ⟨hnot, rfl, if_neg hnot, htried⟩

theorem RetryInv.step (h : RetryInv s) (hstep : retryStep peers s e = some t) : RetryInv t := by
  intro j
  obtain ⟨-, ⟨-, -, hhanded, hdrawn, htried⟩ | ⟨i, hhanded, hpick⟩⟩ := retryStep_cases hstep
  · rw [hhanded, hdrawn, htried]
    exact h j
  · obtain ⟨-, -, hdrawn, htried⟩ | ⟨-, -, hdrawn, htried⟩ := hpick
    · rw [hhanded, hdrawn, htried, List.mem_cons, List.mem_cons, h j]
      exact or_left_comm
    · rw [hhanded, hdrawn, htried, List.mem_cons, List.mem_cons, h j]
      exact or_assoc.symm

/-- A peer that is handed out behind others keeps the law exactly when it is new while one of
the peers is untried. -/
theorem noEarlyRetry_cons_iff {i : ℕ} (hhanded : t.handed = i :: s.handed) :
    NoEarlyRetry peers t ↔ (UntriedLeft peers s.handed → i ∉ s.handed) := by
  constructor
  · intro hno
    exact hno i s.handed hhanded
  · intro hnew i' earlier heq
    obtain ⟨rfl, rfl⟩ := List.cons.inj (hhanded.symm.trans heq)
    exact hnew

theorem retryStep_noEarlyRetry_iff (hinv : RetryInv s) (h : NoEarlyRetry peers s)
    (hstep : retryStep peers s e = some t) : NoEarlyRetry peers t ↔ DrawsFresh peers s e := by
  obtain ⟨hanswers, ⟨hd, hnone, hhanded, -⟩ | ⟨i, hhanded, hpick⟩⟩ := retryStep_cases hstep
  · apply iff_of_true
    · intro i earlier heq
      exact h i earlier (hhanded.symm.trans heq)
    · intro _
      refine ⟨fun hnot => absurd hd hnot, fun _ i hsome => ?_⟩
      exact absurd (hnone.symm.trans hsome) (Option.some_ne_none i).symm
  · rw [noEarlyRetry_cons_iff hhanded, hinv.untriedLeft_iff]
    apply imp_congr_right
    intro _
    obtain ⟨hd, hanswer, -⟩ | ⟨hnot, rfl, -⟩ := hpick
    · -- the bit of the answer was not set, so it repeats a peer only where that was drawn
      rw [hanswer] at hanswers
      rw [hinv.answer_mem_iff hanswers]
      constructor
      · intro hnew
        refine ⟨fun hnot => absurd hd hnot, fun _ j hj => ?_⟩
        obtain rfl := Option.some.inj (hanswer.symm.trans hj)
        exact hnew
      · intro hfresh
        exact hfresh.2 hd i hanswer
    · rw [← hinv.fresh_iff]
      constructor
      · intro hnew
        exact ⟨fun _ => hnew, fun hd => absurd hd hnot⟩
      · intro hfresh
        exact hfresh.1 hnot

/-- A request with the peer data that was made for it. -/
def RetryState.init (conns : ℕ → ℤ) (pc : NgxPeerConnection) : RetryState := ⟨conns, pc, [], []⟩

/-- No bit is set in new peer data. -/
theorem initPeer_tried {pcalloc roundRobin : Bool} {pc : NgxPeerConnection}
    (h : ngxHttpUpstreamInitNdgBalancePeer pcalloc roundRobin = some pc) :
    pc.data.rrp.tried = [] := by
  obtain ⟨-, h⟩ := Option.ite_none_left_eq_some.mp h
  obtain ⟨-, h⟩ := Option.ite_none_left_eq_some.mp h
  exact Option.some.inj h ▸ rfl

theorem RetryInv.init (conns : ℕ → ℤ) {pc : NgxPeerConnection}
    (htried : pc.data.rrp.tried = []) : RetryInv (.init conns pc) := by
  intro i
  simp [RetryState.init, htried]

/-- **No early retry.** In every run of a request whose attempts fail, no peer is handed out
again while one that is not down is untried, exactly when in that time every random pick draws a
fresh peer, and the round robin answers with no peer that was drawn at random. -/
theorem no_early_retry_iff (peers : NgxHttpUpstreamRrPeers) (conns : ℕ → ℤ)
    {pcalloc roundRobin : Bool} {pc : NgxPeerConnection}
    (hinit : ngxHttpUpstreamInitNdgBalancePeer pcalloc roundRobin = some pc)
    (es : List Attempt) :
    Along (retryStep peers) (NoEarlyRetry peers) (.init conns pc) es ↔
      Meets (retryStep peers) (DrawsFresh peers) (.init conns pc) es := by
  apply along_iff_meets_of_exact (I := RetryInv)
  · intro s e t hinv hstep
    exact hinv.step hstep
  · intro s e t hinv h hstep
    exact retryStep_noEarlyRetry_iff hinv h hstep
  · exact RetryInv.init conns (initPeer_tried hinit)
  · intro i earlier heq
    cases heq

/-- The first of three peers is drawn, and then the second, which is down: the round robin
answers with the third, and no peer is handed out twice. -/
theorem no_early_retry_behind_down_peer : ∃ pc,
    ngxHttpUpstreamInitNdgBalancePeer true true = some pc ∧
      Along
        (retryStep ⟨false, [⟨1, 16, ⟨1, 64⟩, false⟩, ⟨2, 16, ⟨1, 65⟩, true⟩,
          ⟨3, 16, ⟨1, 66⟩, false⟩]⟩)
        (NoEarlyRetry ⟨false, [⟨1, 16, ⟨1, 64⟩, false⟩, ⟨2, 16, ⟨1, 65⟩, true⟩,
          ⟨3, 16, ⟨1, 66⟩, false⟩]⟩)
        (.init (fun _ => 0) pc) [⟨0, none⟩, ⟨1, some 2⟩] := by
  have hinit : ngxHttpUpstreamInitNdgBalancePeer true true = some _ := rfl
  refine ⟨_, hinit, (no_early_retry_iff _ _ hinit _).mpr ?_⟩
  rintro t ht
  obtain rfl := Option.some.inj ht
  refine ⟨fun _ => ⟨fun _ => ⟨by decide, by decide⟩, fun hd => absurd hd (by decide)⟩, ?_⟩
  rintro t ht
  obtain rfl := Option.some.inj ht
  refine ⟨fun _ => ⟨fun hnot => absurd (show Delegates _ _ _ by decide) hnot, ?_⟩, trivial⟩
  rintro _ i hi
  obtain rfl := Option.some.inj hi
  decide

/-- Two peers are up, and the first is drawn twice. -/
theorem early_retry : ∃ pc, ngxHttpUpstreamInitNdgBalancePeer true true = some pc ∧
    ¬ Along (retryStep ⟨false, [⟨1, 16, ⟨1, 64⟩, false⟩, ⟨2, 16, ⟨1, 65⟩, false⟩]⟩)
      (NoEarlyRetry ⟨false, [⟨1, 16, ⟨1, 64⟩, false⟩, ⟨2, 16, ⟨1, 65⟩, false⟩]⟩)
      (.init (fun _ => 0) pc) [⟨0, some 1⟩, ⟨2, some 1⟩] := by
  refine ⟨_, rfl, fun h => ?_⟩
  have hno := ((h.2 _ rfl).2 _ rfl : NoEarlyRetry _ _) 0 [0] rfl
  exact hno ⟨1, _, rfl, rfl, by decide⟩ (by decide)

end NgxNdg
