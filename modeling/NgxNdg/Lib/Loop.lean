import Mathlib.Data.List.Basic
import Mathlib.Data.List.Flatten

/-!
# The `for` loop of C

A body leaves an iteration by its end, by `continue` or by `break`, and only `break` leaves the
loop around it.

## Main definitions

- `forLoop`: the loop with a condition, a step and a body, on fuel
- `upToBreak`: the elements a body is run on when it is offered those of a list
- `Passes`: a body offered the elements of a list does not break
- `Walk`: the counter of a loop shows the elements of a list, one after the other
- `upToBreaks`: the elements a body is run on in a loop of its own for each list of lists

## Design notes

A body is a function of the state and the element. `traced` adds the list of the elements it has
been run on to the state, so that what a loop runs its body on is part of what the loop computes.
-/

namespace CLoop

/-- How a body leaves an iteration. -/
inductive Exit
  | fallThrough
  | cont
  | brk
  deriving DecidableEq

variable {σ τ α : Type*}

/-- `for (; cond i; i = step i) body`, or `none` when the fuel or that of the body runs out. -/
def forLoop (cond : τ → Bool) (step : τ → τ) (body : σ → τ → Option (σ × Exit)) :
    ℕ → σ → τ → Option σ
  | 0, _, _ => none
  | fuel + 1, s, i =>
    if cond i then
      (body s i).bind fun r =>
        if r.2 = .brk then some r.1 else forLoop cond step body fuel r.1 (step i)
    else some s

/-- The elements the body is run on: those up to the first one it breaks at. -/
def upToBreak (body : σ → α → σ × Exit) : σ → List α → List α
  | _, [] => []
  | s, x :: xs => x :: if (body s x).2 = .brk then [] else upToBreak body (body s x).1 xs

/-- The state behind the run of the body on the elements of a list. -/
def after (body : σ → α → σ × Exit) (s : σ) (xs : List α) : σ :=
  xs.foldl (fun s x => (body s x).1) s

/-- The body breaks at no element of the list. -/
def Passes (body : σ → α → σ × Exit) : σ → List α → Prop
  | _, [] => True
  | s, x :: xs => (body s x).2 ≠ .brk ∧ Passes body (body s x).1 xs

/-- The body with the elements it is run on. -/
def traced (body : σ → α → σ × Exit) : σ × List α → α → (σ × List α) × Exit
  | (s, tr), x => (((body s x).1, tr ++ [x]), (body s x).2)

/-- The counter `i` shows the elements of the list, and behind them the condition is false. -/
def Walk (cond : τ → Bool) (step : τ → τ) (shows : τ → α → Prop) : τ → List α → Prop
  | i, [] => cond i = false
  | i, x :: xs => cond i = true ∧ shows i x ∧ Walk cond step shows (step i) xs

/-- The elements the body is run on when each list has a loop of its own. -/
def upToBreaks (body : σ → α → σ × Exit) : σ → List (List α) → List α
  | _, [] => []
  | s, xs :: xss =>
    upToBreak body s xs ++ upToBreaks body (after body s (upToBreak body s xs)) xss

variable {body : σ → α → σ × Exit} {s : σ} {x : α} {xs ys : List α}

theorem upToBreak_eq_nil_iff : upToBreak body s xs = [] ↔ xs = [] := by
  cases xs <;> simp [upToBreak]

theorem passes_append :
    Passes body s (xs ++ ys) ↔ Passes body s xs ∧ Passes body (after body s xs) ys := by
  induction xs generalizing s with
  | nil => simp [Passes, after]
  | cons x xs ih =>
    rw [List.cons_append, Passes, Passes, ih, and_assoc]
    rfl

/-- A body that passes a list goes on with what follows. -/
theorem upToBreak_append (h : Passes body s xs) :
    upToBreak body s (xs ++ ys) = xs ++ upToBreak body (after body s xs) ys := by
  induction xs generalizing s with
  | nil => rfl
  | cons x xs ih =>
    rw [List.cons_append, upToBreak, if_neg h.1, ih h.2]
    rfl

/-- A body that breaks in a list does not reach what follows. -/
theorem upToBreak_append_of_not_passes (h : ¬ Passes body s xs) :
    upToBreak body s (xs ++ ys) = upToBreak body s xs := by
  induction xs generalizing s with
  | nil => exact absurd trivial h
  | cons x xs ih =>
    rw [List.cons_append, upToBreak, upToBreak]
    split
    · rfl
    · next hbrk => rw [ih fun hpasses => h ⟨hbrk, hpasses⟩]

theorem upToBreak_of_passes (h : Passes body s xs) : upToBreak body s xs = xs := by
  have happend := @upToBreak_append _ _ body s xs [] h
  rwa [List.append_nil, upToBreak, List.append_nil] at happend

/-- The first element the body breaks at is the last one it is run on. -/
theorem upToBreak_of_break (h : Passes body s xs) (hbrk : (body (after body s xs) x).2 = .brk) :
    upToBreak body s (xs ++ x :: ys) = xs ++ [x] := by
  rw [upToBreak_append h, upToBreak, if_pos hbrk]

-- ════════════════════════════════════════════════════════════════════════
-- Traces
-- ════════════════════════════════════════════════════════════════════════

theorem upToBreak_traced (tr : List α) :
    upToBreak (traced body) (s, tr) xs = upToBreak body s xs := by
  induction xs generalizing s tr with
  | nil => rfl
  | cons x xs ih =>
    have hrest := @ih (body s x).1 (tr ++ [x])
    rw [upToBreak, upToBreak, ← hrest]
    rfl

theorem after_traced (tr : List α) :
    after (traced body) (s, tr) xs = (after body s xs, tr ++ xs) := by
  induction xs generalizing s tr with
  | nil => simp [after]
  | cons x xs ih =>
    show after (traced body) ((body s x).1, tr ++ [x]) xs = (after body (body s x).1 xs, _)
    rw [ih, List.append_assoc, List.singleton_append]

-- ════════════════════════════════════════════════════════════════════════
-- The loop
-- ════════════════════════════════════════════════════════════════════════

/-- **Loop rule.** A loop whose counter shows the elements of a list runs its body on those up to
the first break, and ends. -/
theorem forLoop_eq {cond : τ → Bool} {step : τ → τ} {shows : τ → α → Prop} {i : τ}
    {loopBody : σ → τ → Option (σ × Exit)} (hwalk : Walk cond step shows i xs)
    (hbody : ∀ s i, ∀ x ∈ xs, shows i x → loopBody s i = some (body s x))
    {fuel : ℕ} (hfuel : xs.length < fuel) :
    forLoop cond step loopBody fuel s i = some (after body s (upToBreak body s xs)) := by
  induction xs generalizing s i fuel with
  | nil =>
    obtain _ | fuel := fuel
    · exact absurd hfuel (Nat.not_lt_zero _)
    · rw [forLoop, if_neg (Bool.eq_false_iff.mp hwalk)]
      rfl
  | cons x xs ih =>
    obtain ⟨hcond, hshows, hrest⟩ := hwalk
    obtain _ | fuel := fuel
    · exact absurd hfuel (Nat.not_lt_zero _)
    rw [forLoop, if_pos hcond, hbody s i x List.mem_cons_self hshows, Option.bind_some, upToBreak]
    split
    · rfl
    · exact ih hrest (fun s i y hy => hbody s i y (List.mem_cons_of_mem x hy))
        (Nat.lt_of_succ_lt_succ hfuel)

/-- A loop whose body always comes to its end runs it on every element. -/
theorem forLoop_eq_foldl {cond : τ → Bool} {step : τ → τ} {shows : τ → α → Prop} {i : τ}
    {loopBody : σ → τ → Option (σ × Exit)} {f : σ → α → σ} (hwalk : Walk cond step shows i xs)
    (hbody : ∀ s i, ∀ x ∈ xs, shows i x → loopBody s i = some (f s x, .fallThrough))
    {fuel : ℕ} (hfuel : xs.length < fuel) :
    forLoop cond step loopBody fuel s i = some (xs.foldl f s) := by
  have hpasses : ∀ ys s, Passes (fun s x => (f s x, Exit.fallThrough)) s ys := by
    intro ys
    induction ys with
    | nil => exact fun _ => trivial
    | cons y ys ih => exact fun s => ⟨Exit.noConfusion, ih (f s y)⟩
  rw [forLoop_eq hwalk hbody hfuel, upToBreak_of_passes (hpasses xs s)]
  rfl

theorem after_append : after body s (xs ++ ys) = after body (after body s xs) ys :=
  List.foldl_append

theorem upToBreaks_traced (tr : List α) (xss : List (List α)) :
    upToBreaks (traced body) (s, tr) xss = upToBreaks body s xss := by
  induction xss generalizing s tr with
  | nil => rfl
  | cons xs xss ih => rw [upToBreaks, upToBreaks, upToBreak_traced, after_traced, ih]

/-- Loops of their own, one after the other, go from state to state. -/
theorem foldl_after_upToBreak (xss : List (List α)) :
    xss.foldl (fun s xs => after body s (upToBreak body s xs)) s =
      after body s (upToBreaks body s xss) := by
  induction xss generalizing s with
  | nil => rfl
  | cons xs xss ih => rw [List.foldl_cons, ih, upToBreaks, after_append]

theorem upToBreaks_eq_nil_iff {xss : List (List α)} :
    upToBreaks body s xss = [] ↔ xss.flatten = [] := by
  induction xss generalizing s with
  | nil => exact iff_of_true rfl rfl
  | cons xs xss ih =>
    rw [upToBreaks, List.flatten_cons, List.append_eq_nil_iff, List.append_eq_nil_iff,
      upToBreak_eq_nil_iff, ih]

/-- **Break in the inner loop.** Loops of their own run the body on the elements up to its first
break exactly when no element follows the list the body breaks in. -/
theorem upToBreaks_eq_iff {xss : List (List α)} :
    upToBreaks body s xss = upToBreak body s xss.flatten ↔
      ∀ pre post, xss = pre ++ post → post.flatten ≠ [] → Passes body s pre.flatten := by
  induction xss generalizing s with
  | nil =>
    refine iff_of_true rfl fun pre post hsplit hpost => ?_
    obtain ⟨rfl, rfl⟩ := List.append_eq_nil_iff.mp hsplit.symm
    exact absurd rfl hpost
  | cons xs xss ih =>
    rw [upToBreaks, List.flatten_cons]
    by_cases hxs : Passes body s xs
    · rw [upToBreak_of_passes hxs, upToBreak_append hxs, List.append_cancel_left_eq, ih]
      constructor
      · rintro h (_ | ⟨ys, pre⟩) post hsplit hpost
        · trivial
        · obtain ⟨rfl, hrest⟩ := List.cons.inj hsplit
          exact passes_append.mpr ⟨hxs, h pre post hrest hpost⟩
      · intro h pre post hsplit hpost
        exact (passes_append.mp (h (xs :: pre) post (hsplit ▸ rfl) hpost)).2
    · rw [upToBreak_append_of_not_passes hxs, List.append_right_eq_self, upToBreaks_eq_nil_iff]
      constructor
      · rintro hnil (_ | ⟨ys, pre⟩) post hsplit hpost
        · trivial
        · have hrest : xss = pre ++ post := (List.cons.inj hsplit).2
          rw [hrest, List.flatten_append, List.append_eq_nil_iff] at hnil
          exact absurd hnil.2 hpost
      · intro h
        by_contra hne
        have hpre := h [xs] xss rfl hne
        rw [List.flatten_singleton] at hpre
        exact hxs hpre

theorem upToBreaks_of_passes {xss : List (List α)} (h : Passes body s xss.flatten) :
    upToBreaks body s xss = xss.flatten := by
  rw [← upToBreak_of_passes h, upToBreaks_eq_iff]
  rintro pre post rfl -
  rw [List.flatten_append] at h
  exact (passes_append.mp h).1

theorem upToBreaks_append (pre post : List (List α)) :
    upToBreaks body s (pre ++ post) =
      upToBreaks body s pre ++ upToBreaks body (after body s (upToBreaks body s pre)) post := by
  induction pre generalizing s with
  | nil => rfl
  | cons xs pre ih =>
    rw [List.cons_append, upToBreaks, ih, upToBreaks, after_append, List.append_assoc]

end CLoop
