import NgxNdg.Subrequest.Access

/-!
# How often a subrequest is started

The access handler knows by the module context that it has run before, and only the post handler
creates that context. So each run in between starts a subrequest of its own.

## Main definitions

- `AccessEvent.allocates`, `AccessEvent.createsContext`: what the allocations of a step allow
- `RunsOnce`: the access handler does not run again before the context is there
-/

namespace NgxNdg

open Transition

/-- The access handler runs, and the allocation it may need would succeed. -/
def AccessEvent.allocates : AccessEvent → Bool
  | .handler pcalloc _ => pcalloc
  | .finish _ _ _ _ _ => false

/-- The post handler runs, and the allocation of the context would succeed. -/
def AccessEvent.createsContext : AccessEvent → Bool
  | .handler _ _ => false
  | .finish _ _ _ _ pcalloc => pcalloc

/-- The steps of a run up to the one that creates the context. -/
def beforeContext (es : List AccessEvent) : List AccessEvent :=
  es.takeWhile fun e => !e.createsContext

/-- Of the runs of the access handler that get their allocation, none comes behind another one
before the context is there. -/
def RunsOnce (es : List AccessEvent) : Prop :=
  (beforeContext es).Pairwise fun e f => ¬ (e.allocates = true ∧ f.allocates = true)

variable {uri args : NgxStr} {r t : AccessRequest} {e : AccessEvent} {es : List AccessEvent}

theorem countP_le_one_iff {ε : Type*} {p : ε → Bool} {l : List ε} :
    l.countP p ≤ 1 ↔ l.Pairwise fun a b => ¬ (p a = true ∧ p b = true) := by
  induction l with
  | nil => simp
  | cons a l ih =>
    rw [List.pairwise_cons, ← ih]
    by_cases ha : p a = true
    · rw [List.countP_cons_of_pos ha]
      constructor
      · intro hle
        have hzero : l.countP p = 0 := by omega
        refine ⟨fun b hb hab => ?_, by omega⟩
        exact List.countP_eq_zero.mp hzero b hb hab.2
      · rintro ⟨hnone, -⟩
        have hzero : l.countP p = 0 := List.countP_eq_zero.mpr fun b hb hpb => hnone b hb ⟨ha, hpb⟩
        omega
    · rw [List.countP_cons_of_neg ha]
      exact ⟨fun hle => ⟨fun _ _ hab => ha hab.1, hle⟩, fun h => h.2⟩

/-- Without a context a run of the access handler starts a subrequest when it gets its
allocation. -/
theorem calls_of_handler {pcalloc : Bool} {subrequest : ℤ} (huri : uri.len ≠ 0)
    (hctx : r.ctx = none) (hstep : accessStep uri r (.handler pcalloc subrequest) = some t) :
    t.ctx = none ∧ t.calls = r.calls + pcalloc.toNat := by
  obtain ⟨⟨t', rc⟩, hcall, rfl⟩ := Option.map_eq_some_iff.mp hstep
  obtain ⟨hsame, _, _, ⟨⟨_, _, rfl⟩, hcalls⟩ | ⟨hnot, hcalls⟩, _⟩ := handler_cases hcall
  · exact ⟨hsame.trans hctx, hcalls⟩
  · have hfails : pcalloc = false := Bool.eq_false_iff.mpr fun halloc => hnot ⟨huri, hctx, halloc⟩
    rw [hfails]
    exact ⟨hsame.trans hctx, hcalls⟩

/-- A context stays, and with it no step starts a subrequest; nor without a uri. -/
theorem calls_of_settled_step (hsettled : uri.len = 0 ∨ r.ctx ≠ none)
    (hstep : accessStep uri r e = some t) :
    (uri.len = 0 ∨ t.ctx ≠ none) ∧ t.calls = r.calls := by
  cases e with
  | handler pcalloc subrequest =>
    obtain ⟨⟨t', rc⟩, hcall, rfl⟩ := Option.map_eq_some_iff.mp hstep
    obtain ⟨hsame, _, _, ⟨⟨huri, hctx, _⟩, _⟩ | ⟨_, hcalls⟩, _⟩ := handler_cases hcall
    · exact hsettled.elim (fun hnil => absurd hnil huri) fun hsome => absurd hctx hsome
    · rw [hsame]
      exact ⟨hsettled, hcalls⟩
  | finish i status out rc pcalloc =>
    obtain ⟨_, _, _, _, _, hcalls, ⟨_, hctx⟩ | ⟨hnot, _⟩⟩ := finish_cases hstep
    · rw [hctx]
      exact ⟨.inr (Option.some_ne_none _), hcalls⟩
    · exact ⟨hsettled.imp_right fun hsome => absurd (.inl hsome) hnot, hcalls⟩

theorem calls_of_settled_run (hsettled : uri.len = 0 ∨ r.ctx ≠ none)
    (hrun : exec (accessStep uri) r es = some t) : t.calls = r.calls := by
  have hinv : (uri.len = 0 ∨ t.ctx ≠ none) ∧ t.calls = r.calls := by
    refine exec_invariant (I := fun s => (uri.len = 0 ∨ s.ctx ≠ none) ∧ s.calls = r.calls) ?_
      ⟨hsettled, rfl⟩ hrun
    intro s e t ⟨hs, hcalls⟩ hstep
    exact hcalls ▸ calls_of_settled_step hs hstep
  exact hinv.2

/-- A run from a request without a context starts a subrequest for each run of the access handler
that gets its allocation before the context is there. -/
theorem calls_of_run (huri : uri.len ≠ 0) (hctx : r.ctx = none)
    (hrun : exec (accessStep uri) r es = some t) :
    t.calls = r.calls + (beforeContext es).countP AccessEvent.allocates := by
  induction es generalizing r with
  | nil =>
    obtain rfl := Option.some.inj hrun
    rfl
  | cons e es ih =>
    obtain ⟨s, hstep, hrest⟩ := Option.bind_eq_some_iff.mp hrun
    cases e with
    | handler pcalloc subrequest =>
      obtain ⟨hsctx, hcalls⟩ := calls_of_handler huri hctx hstep
      rw [ih hsctx hrest, hcalls, beforeContext, beforeContext, List.takeWhile_cons_of_pos rfl,
        List.countP_cons]
      cases pcalloc with
      | false =>
        show r.calls + 0 + _ = r.calls + (_ + 0)
        omega
      | true =>
        show r.calls + 1 + _ = r.calls + (_ + 1)
        omega
    | finish i status out rc pcalloc =>
      obtain ⟨_, _, _, _, _, hcalls, ⟨hrecords, hsctx⟩ | ⟨hnot, hsctx⟩⟩ := finish_cases hstep
      · -- the context is there, and no step behind this one starts a subrequest
        obtain hsome | rfl := hrecords
        · exact absurd hctx hsome
        rw [calls_of_settled_run (.inr (hsctx ▸ Option.some_ne_none _)) hrest, hcalls]
        rfl
      · have hfails : pcalloc = false := Bool.eq_false_iff.mpr fun halloc => hnot (.inr halloc)
        subst hfails
        rw [ih hsctx hrest, hcalls, beforeContext, beforeContext,
          List.takeWhile_cons_of_pos rfl, List.countP_cons_of_neg Bool.false_ne_true]

/-- **One subrequest per request.** A run of a request calls `ngx_http_subrequest` at most once
exactly when there is no uri, or the access handler does not get its allocation a second time
before the post handler has created the context. -/
theorem subrequest_once_iff (hrun : exec (accessStep uri) (.init args) es = some t) :
    t.calls ≤ 1 ↔ uri.len = 0 ∨ RunsOnce es := by
  by_cases huri : uri.len = 0
  · rw [calls_of_settled_run (.inl huri) hrun]
    exact iff_of_true (Nat.zero_le 1) (.inl huri)
  · rw [calls_of_run huri rfl hrun, RunsOnce, ← countP_le_one_iff, or_iff_right huri]
    show 0 + _ ≤ 1 ↔ _
    rw [Nat.zero_add]

/-- A subrequest that ends before the access handler runs again is the only one. -/
theorem subrequest_once_allowed : ∃ t, exec (accessStep ⟨6, 64⟩) (.init ⟨0, 0⟩)
    [.handler true ngxOk, .finish 0 ngxHttpOk [some ngxCallocBuf] ngxOk true,
      .handler true ngxOk] = some t ∧
    (t.calls ≤ 1 ↔ (⟨6, 64⟩ : NgxStr).len = 0 ∨ RunsOnce [.handler true ngxOk,
      .finish 0 ngxHttpOk [some ngxCallocBuf] ngxOk true, .handler true ngxOk]) := by
  refine ⟨_, rfl, ?_⟩
  apply subrequest_once_iff
  exact rfl

/-- The phases run again before the subrequest has ended, and a second one is started. -/
theorem subrequest_twice : ∃ t, exec (accessStep ⟨6, 64⟩) (.init ⟨0, 0⟩)
    [.handler true ngxOk, .handler true ngxOk] = some t ∧ ¬ t.calls ≤ 1 := by
  refine ⟨_, rfl, ?_⟩
  decide

end NgxNdg
