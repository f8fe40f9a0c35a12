import Mathlib.Data.List.Basic

/-!
# Runs of a partial step function

A system is given by `step : σ → ε → Option σ`: the event `e` is possible in the
state `s` exactly when `step s e` is `some t`. An event carries every outcome the
environment chooses, so a list of events determines a run.

## Main definitions

- `exec step s es`: the state after all the events of `es`, if each is possible
- `Along step P s es`: `P` holds of every state the run visits, the first included
- `Meets step C s es`: every step the run takes satisfies the side condition `C`
- `Runs rel s es t`: a run of a relation labelled with events, which need not determine it

## Design notes

`Along` and `Meets` stop at the first impossible event, so a statement about all lists
of events is a statement about all runs and needs no hypothesis that a list is one.
-/

namespace Transition

variable {σ ε : Type*}

/-- The state after the events `es`, or `none` when one of them is impossible. -/
def exec (step : σ → ε → Option σ) : σ → List ε → Option σ
  | s, [] => some s
  | s, e :: es => (step s e).bind fun t => exec step t es

/-- `P` holds of every state visited by the run on `es`. -/
def Along (step : σ → ε → Option σ) (P : σ → Prop) : σ → List ε → Prop
  | s, [] => P s
  | s, e :: es => P s ∧ ∀ t, step s e = some t → Along step P t es

/-- Every step taken by the run on `es` satisfies `C` in the state it starts from. -/
def Meets (step : σ → ε → Option σ) (C : σ → ε → Prop) : σ → List ε → Prop
  | _, [] => True
  | s, e :: es => ∀ t, step s e = some t → C s e ∧ Meets step C t es

variable {step : σ → ε → Option σ} {P Q I : σ → Prop} {C : σ → ε → Prop}

theorem exec_append (s : σ) (es fs : List ε) :
    exec step s (es ++ fs) = (exec step s es).bind fun t => exec step t fs := by
  induction es generalizing s with
  | nil => rfl
  | cons e es ih =>
    simp only [List.cons_append, exec, Option.bind_assoc]
    exact congrArg _ (funext ih)

/-- A property along a run holds of the state the run starts from. -/
theorem Along.head {s : σ} {es : List ε} (h : Along step P s es) : P s := by
  cases es with
  | nil => exact h
  | cons e es => exact h.1

theorem Along.mono {s : σ} {es : List ε} (hPQ : ∀ s, P s → Q s)
    (h : Along step P s es) : Along step Q s es := by
  induction es generalizing s with
  | nil => exact hPQ s h
  | cons e es ih => exact ⟨hPQ s h.1, fun t ht => ih (h.2 t ht)⟩

/-- `Along` speaks about exactly the states that a prefix of the events leads to. -/
theorem along_iff_exec {s : σ} {es : List ε} :
    Along step P s es ↔ ∀ pre, pre <+: es → ∀ t, exec step s pre = some t → P t := by
  induction es generalizing s with
  | nil =>
    constructor
    · intro h pre hpre t ht
      rw [List.prefix_nil] at hpre
      subst hpre
      simp only [exec, Option.some.injEq] at ht
      exact ht ▸ h
    · intro h
      exact h [] (List.nil_prefix) s rfl
  | cons e es ih =>
    constructor
    · rintro ⟨hs, hrest⟩ pre hpre t ht
      cases pre with
      | nil =>
        simp only [exec, Option.some.injEq] at ht
        exact ht ▸ hs
      | cons e' pre =>
        obtain ⟨rfl, htail⟩ := List.cons_prefix_cons.mp hpre
        obtain ⟨u, hu, hut⟩ := Option.bind_eq_some_iff.mp ht
        exact ih.mp (hrest u hu) pre htail t hut
    · intro h
      refine ⟨h [] List.nil_prefix s rfl, fun u hu => ih.mpr fun pre hpre t ht => ?_⟩
      refine h (e :: pre) (List.cons_prefix_cons.mpr ⟨rfl, hpre⟩) t ?_
      rw [exec, hu]
      exact ht

/-- **Invariant rule.** What every step preserves holds along every run. -/
theorem Along.of_invariant (keep : ∀ s e t, I s → step s e = some t → I t)
    {s : σ} (hs : I s) (es : List ε) : Along step I s es := by
  induction es generalizing s with
  | nil => exact hs
  | cons e es ih => exact ⟨hs, fun t ht => ih (keep s e t hs ht)⟩

/-- What the steps on some kind of events preserve holds along every run on such events. -/
theorem Along.of_invariant_of_forall {E : ε → Prop}
    (keep : ∀ s e t, E e → I s → step s e = some t → I t) {s : σ} (hs : I s) {es : List ε}
    (hes : ∀ e ∈ es, E e) : Along step I s es := by
  induction es generalizing s with
  | nil => exact hs
  | cons e es ih =>
    obtain ⟨he, hes⟩ := List.forall_mem_cons.mp hes
    exact ⟨hs, fun t ht => ih (keep s e t he hs ht) hes⟩

/-- What every step preserves holds behind every run. -/
theorem exec_invariant (keep : ∀ s e t, I s → step s e = some t → I t) {s t : σ}
    {es : List ε} (hs : I s) (hexec : exec step s es = some t) : I t :=
  along_iff_exec.mp (Along.of_invariant keep hs es) es List.prefix_rfl t hexec

/-- **Exact condition rule.** When the steps that satisfy `C` keep an invariant that
gives `P`, and a step from an invariant state that violates `C` breaks `P`, then `P`
holds along a run exactly when all its steps satisfy `C`. -/
theorem along_iff_meets (keep : ∀ s e t, I s → C s e → step s e = some t → I t)
    (sound : ∀ s, I s → P s)
    (sharp : ∀ s e t, I s → ¬ C s e → step s e = some t → ¬ P t)
    {s : σ} (hs : I s) (es : List ε) : Along step P s es ↔ Meets step C s es := by
  induction es generalizing s with
  | nil => exact ⟨fun _ => trivial, fun _ => sound s hs⟩
  | cons e es ih =>
    constructor
    · rintro ⟨_, hrest⟩ t ht
      have hC : C s e := by
        by_contra hC
        exact sharp s e t hs hC ht (hrest t ht).head
      exact ⟨hC, (ih (keep s e t hs hC ht)).mp (hrest t ht)⟩
    · intro h
      refine ⟨sound s hs, fun t ht => ?_⟩
      obtain ⟨hC, hrest⟩ := h t ht
      exact (ih (keep s e t hs hC ht)).mpr hrest

/-- **Exact step rule.** When an invariant is kept by every step, and a step from a state with
`P` leads to one with `P` exactly when it satisfies `C`, then `P` holds along a run exactly
when all its steps satisfy `C`. -/
theorem along_iff_meets_of_exact (keep : ∀ s e t, I s → step s e = some t → I t)
    (exact_step : ∀ s e t, I s → P s → step s e = some t → (P t ↔ C s e))
    {s : σ} (hI : I s) (hP : P s) (es : List ε) : Along step P s es ↔ Meets step C s es := by
  refine along_iff_meets (I := fun s => I s ∧ P s) ?_ (fun s h => h.2) ?_ ⟨hI, hP⟩ es
  · intro s e t ⟨hI, hP⟩ hC hstep
    exact ⟨keep s e t hI hstep, (exact_step s e t hI hP hstep).mpr hC⟩
  · intro s e t ⟨hI, hP⟩ hC hstep hPt
    exact hC ((exact_step s e t hI hP hstep).mp hPt)

/-- A run from `s` to `t` on the events `es`, of a relation that may allow several states behind
an event. -/
inductive Runs (rel : σ → ε → σ → Prop) : σ → List ε → σ → Prop
  | nil (s : σ) : Runs rel s [] s
  | cons {s t u : σ} {e : ε} {es : List ε} : rel s e t → Runs rel t es u → Runs rel s (e :: es) u

/-- **Simulation rule.** A relation between the states that every step keeps, with a step of the
other system on the same event, holds behind every run, with a run of the other system. -/
theorem Runs.simulate {τ : Type*} {rel : σ → ε → σ → Prop} {rel' : τ → ε → τ → Prop}
    {R : σ → τ → Prop}
    (hsim : ∀ s e t s', rel s e t → R s s' → ∃ t', rel' s' e t' ∧ R t t')
    {s t : σ} {es : List ε} (hruns : Runs rel s es t) {s' : τ} (hR : R s s') :
    ∃ t', Runs rel' s' es t' ∧ R t t' := by
  induction hruns generalizing s' with
  | nil s => exact ⟨s', .nil s', hR⟩
  | @cons s t u e es hstep _ ih =>
    obtain ⟨t', hstep', hR'⟩ := hsim s e t s' hstep hR
    obtain ⟨u', hruns', hR''⟩ := ih hR'
    exact ⟨u', .cons hstep' hruns', hR''⟩

end Transition
