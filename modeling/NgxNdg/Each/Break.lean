import Mathlib.Algebra.Order.BigOperators.Group.List
import Mathlib.Algebra.Order.Group.Nat
import NgxNdg.Each.Model
import NgxNdg.Queue.Insert

/-!
# Break in the iteration macros

`ngx_array_each` and `ngx_queue_each` are one loop, and run a body on the elements up to the first
one it breaks at. `ngx_list_each` is two nested loops: a `break` ends the run over one part, and
the body goes on with the first element of the next part.
-/

namespace NgxNdg

open CLoop LinkRing Memory

variable {σ α β : Type*} {mem : ℕ → α} {list : NgxList}
  {body : σ → α → σ × Exit} {s : σ}

-- ════════════════════════════════════════════════════════════════════════
-- What each macro computes
-- ════════════════════════════════════════════════════════════════════════

/-- The pointer to an element shows the cells up to the end. -/
theorem walk_cells (mem : ℕ → α) (elt n : ℕ) :
    Walk (fun elt' => elt' != elt + n) (fun elt => elt + 1) (fun elt x => mem elt = x) elt
      (cells mem elt (elt + n)) := by
  induction n generalizing elt with
  | zero =>
    rw [Nat.add_zero, cells_self]
    exact bne_self_eq_false elt
  | succ n ih =>
    rw [cells_cons (Nat.lt_add_of_pos_right n.succ_pos)]
    refine ⟨bne_iff_ne.mpr (by omega), rfl, ?_⟩
    have hrest := ih (elt + 1)
    rwa [show elt + 1 + n = elt + (n + 1) by omega] at hrest

theorem eltLoop_eq {elt n fuel : ℕ} (hfuel : n < fuel) :
    eltLoop mem body fuel s elt (elt + n) =
      some (after body s (upToBreak body s (cells mem elt (elt + n)))) := by
  refine forLoop_eq (walk_cells mem elt n) ?_ ?_
  · rintro s i x - rfl
    rfl
  · rwa [length_cells, Nat.add_sub_cancel_left]

theorem ngxArrayEach_eq {array : NgxArray} {fuel : ℕ} (hfuel : array.nelts < fuel) :
    ngxArrayEach mem array body fuel s =
      some (after body s (upToBreak body s (array.elements mem))) :=
  eltLoop_eq hfuel

/-- The pointer to a part shows the parts up to the last. -/
theorem walk_parts (parts : List NgxListPart) :
    Walk (fun part => !part.isEmpty) List.tail (fun part p => part.head? = some p) parts parts := by
  induction parts with
  | nil => rfl
  | cons p parts ih => exact ⟨rfl, rfl, ih⟩

/-- The loops over the parts, each up to its own break. -/
theorem ngxListEach_eq {fuel : ℕ} (hparts : list.parts.length < fuel)
    (hfuel : ∀ p ∈ list.parts, p.nelts < fuel) :
    ngxListEach mem list body fuel s =
      some (after body s (upToBreaks body s (list.parts.map (NgxListPart.elements mem)))) := by
  rw [ngxListEach, forLoop_eq_foldl (walk_parts list.parts) ?_ hparts,
    ← foldl_after_upToBreak, List.foldl_map]
  rintro s (_ | ⟨q, part⟩) p hp hshows
  · exact absurd hshows (Option.some_ne_none p).symm
  · obtain rfl : q = p := Option.some.inj hshows
    show (eltLoop mem body fuel s q.elts (q.elts + q.nelts)).map _ = _
    rw [eltLoop_eq (hfuel q hp)]
    rfl

/-- The link of the loop shows the data of the links of the ring. -/
theorem walk_ring [DecidableEq β] {m : Links β} {queue : β} {l : List β} (h : IsRing m queue l)
    (data : β → α) :
    Walk (fun lnk => lnk != queue) m.next (fun lnk x => data lnk = x) (ngxQueueHead queue m)
      (l.map data) := by
  have hwalk : ∀ (a : β) (r : List β), queue ∉ r →
      (a :: (r ++ [queue])).IsChain (fun b c => m.next b = c) →
      Walk (fun lnk => lnk != queue) m.next (fun lnk x => data lnk = x) (m.next a)
        (r.map data) := by
    intro a r hr hchain
    induction r generalizing a with
    | nil =>
      have hlast : m.next a = queue := (List.isChain_cons_cons.mp hchain).1
      rw [hlast]
      exact bne_self_eq_false queue
    | cons b r ih =>
      obtain ⟨hnext, hrest⟩ := List.isChain_cons_cons.mp hchain
      rw [List.mem_cons, not_or] at hr
      rw [hnext]
      exact ⟨bne_iff_ne.mpr (Ne.symm hr.1), rfl, ih b hr.2 hrest⟩
  exact hwalk queue l (List.nodup_cons.mp h.nodup).1 h.traversal

theorem ngxQueueEach_eq [DecidableEq β] {m : Links β} {queue : β} {l : List β}
    (h : IsRing m queue l) (data : β → α) {fuel : ℕ} (hfuel : l.length < fuel) :
    ngxQueueEach m queue data body fuel s =
      some (after body s (upToBreak body s (l.map data))) := by
  refine forLoop_eq (walk_ring h data) ?_ ?_
  · rintro s lnk x - rfl
    rfl
  · rwa [List.length_map]

-- ════════════════════════════════════════════════════════════════════════
-- The elements the body is run on
-- ════════════════════════════════════════════════════════════════════════

/-- With fuel enough the macro `each` ends, and has run the body on exactly the elements `xs`, in
this order. -/
def RunsOn (each : (σ × List α → α → (σ × List α) × Exit) → ℕ → σ × List α → Option (σ × List α))
    (body : σ → α → σ × Exit) (s : σ) (xs : List α) : Prop :=
  ∃ n, ∀ fuel, n ≤ fuel → each (traced body) fuel (s, []) = some (after body s xs, xs)

/-- The body breaks in no part of the list that an element follows. -/
def NgxList.BreaksInLast (mem : ℕ → α) (list : NgxList) (body : σ → α → σ × Exit) (s : σ) : Prop :=
  ∀ pre post, list.parts = pre ++ post → partsElements mem post ≠ [] →
    Passes body s (partsElements mem pre)

theorem RunsOn.unique
    {each : (σ × List α → α → (σ × List α) × Exit) → ℕ → σ × List α → Option (σ × List α)}
    {xs ys : List α} (hxs : RunsOn each body s xs) (hys : RunsOn each body s ys) : xs = ys := by
  obtain ⟨n, hn⟩ := hxs
  obtain ⟨k, hk⟩ := hys
  have heq := (hn (max n k) (le_max_left n k)).symm.trans (hk (max n k) (le_max_right n k))
  exact (Prod.mk.inj (Option.some.inj heq)).2

theorem ngxArrayEach_runsOn (mem : ℕ → α) (array : NgxArray) (body : σ → α → σ × Exit) (s : σ) :
    RunsOn (ngxArrayEach mem array) body s (upToBreak body s (array.elements mem)) := by
  refine ⟨array.nelts + 1, fun fuel hfuel => ?_⟩
  rw [ngxArrayEach_eq hfuel, upToBreak_traced, after_traced, List.nil_append]

theorem ngxQueueEach_runsOn [DecidableEq β] {m : Links β} {queue : β} {l : List β}
    (h : IsRing m queue l) (data : β → α) (body : σ → α → σ × Exit) (s : σ) :
    RunsOn (ngxQueueEach m queue data) body s (upToBreak body s (l.map data)) := by
  refine ⟨l.length + 1, fun fuel hfuel => ?_⟩
  rw [ngxQueueEach_eq h data hfuel, upToBreak_traced, after_traced, List.nil_append]

theorem ngxListEach_runsOn (mem : ℕ → α) (list : NgxList) (body : σ → α → σ × Exit) (s : σ) :
    RunsOn (ngxListEach mem list) body s
      (upToBreaks body s (list.parts.map (NgxListPart.elements mem))) := by
  refine ⟨list.parts.length + (list.parts.map NgxListPart.nelts).sum + 1, fun fuel hfuel => ?_⟩
  have hnelts : ∀ p ∈ list.parts, p.nelts < fuel := by
    intro p hp
    have hle := List.le_sum_of_mem (List.mem_map_of_mem hp : p.nelts ∈ list.parts.map _)
    omega
  rw [ngxListEach_eq (by omega) hnelts, upToBreaks_traced, after_traced, List.nil_append]

/-- The macro for lists runs the body up to its first break exactly when no element follows the
part it breaks in. -/
theorem ngxListEach_runsOn_iff :
    RunsOn (ngxListEach mem list) body s (upToBreak body s (partsElements mem list.parts)) ↔
      list.BreaksInLast mem body s := by
  have hrun := ngxListEach_runsOn mem list body s
  have hiff : RunsOn (ngxListEach mem list) body s
      (upToBreak body s (partsElements mem list.parts)) ↔
        upToBreaks body s (list.parts.map (NgxListPart.elements mem)) =
          upToBreak body s (partsElements mem list.parts) :=
    ⟨fun h => hrun.unique h, fun h => h ▸ hrun⟩
  rw [hiff, partsElements, upToBreaks_eq_iff]
  constructor
  · intro h pre post hsplit hpost
    exact h _ _ (by rw [hsplit, List.map_append]) hpost
  · intro h pre post hsplit hpost
    obtain ⟨ps, qs, hparts, rfl, rfl⟩ := List.map_eq_append_iff.mp hsplit
    exact h ps qs hparts hpost

/-- A body that breaks nowhere is run on all the elements. -/
theorem ngxListEach_runsOn_of_passes (h : Passes body s (partsElements mem list.parts)) :
    RunsOn (ngxListEach mem list) body s (partsElements mem list.parts) := by
  have hrun := ngxListEach_runsOn mem list body s
  rwa [upToBreaks_of_passes h] at hrun

/-- A body that breaks first at `x`, in the part `p`, is run on the elements up to `x` and from
there on those of every further part, up to its break there. -/
theorem ngxListEach_runsOn_of_break {pre post : List NgxListPart} {p : NgxListPart}
    {xs ys : List α} {x : α} (hparts : list.parts = pre ++ p :: post)
    (hp : p.elements mem = xs ++ x :: ys) (h : Passes body s (partsElements mem pre ++ xs))
    (hbrk : (body (after body s (partsElements mem pre ++ xs)) x).2 = .brk) :
    RunsOn (ngxListEach mem list) body s
      (partsElements mem pre ++ ((xs ++ [x]) ++
        upToBreaks body (after body s (partsElements mem pre ++ (xs ++ [x])))
          (post.map (NgxListPart.elements mem)))) := by
  obtain ⟨hpre, hxs⟩ := passes_append.mp h
  rw [after_append] at hbrk
  have hrun := ngxListEach_runsOn mem list body s
  have hbefore : upToBreaks body s (pre.map (NgxListPart.elements mem)) = partsElements mem pre :=
    upToBreaks_of_passes hpre
  rwa [hparts, List.map_append, List.map_cons, upToBreaks_append, hbefore, upToBreaks, hp,
    upToBreak_of_break hxs hbrk, ← after_append] at hrun

/-- **One loop.** Over the same elements the three macros run a body on exactly those up to its
first break, if and only if no element follows the part of the list that the body breaks in. -/
theorem each_macros_agree_iff [DecidableEq β] {xs : List α} {array : NgxArray} {list : NgxList}
    {m : Links β} {queue : β} {l : List β} {data : β → α} (harray : array.elements mem = xs)
    (hlist : partsElements mem list.parts = xs) (hring : IsRing m queue l)
    (hqueue : l.map data = xs) (body : σ → α → σ × Exit) (s : σ) :
    (RunsOn (ngxArrayEach mem array) body s (upToBreak body s xs) ∧
        RunsOn (ngxListEach mem list) body s (upToBreak body s xs) ∧
        RunsOn (ngxQueueEach m queue data) body s (upToBreak body s xs)) ↔
      list.BreaksInLast mem body s := by
  have hrunArray := ngxArrayEach_runsOn mem array body s
  have hrunQueue := ngxQueueEach_runsOn hring data body s
  rw [harray] at hrunArray
  rw [hqueue] at hrunQueue
  rw [← ngxListEach_runsOn_iff, hlist]
  exact ⟨fun h => h.2.1, fun h => ⟨hrunArray, h, hrunQueue⟩⟩

/-- A list of the elements `1` and `2`, each in a part of its own. -/
def twoParts : NgxList where
  part := ⟨1, 1⟩
  next := [⟨2, 1⟩]

/-- The body that breaks at the element `y` and executes `continue` at the others. -/
def breakAt (y : ℕ) : Unit → ℕ → Unit × Exit := fun s x => (s, if x = y then .brk else .cont)

/-- A break at `2`, in the last part. -/
theorem each_macros_agree_last_part :
    RunsOn (ngxArrayEach id ⟨1, 2⟩) (breakAt 2) () [1, 2] ∧
      RunsOn (ngxListEach id twoParts) (breakAt 2) () [1, 2] ∧
      RunsOn (ngxQueueEach threeLinks 0 id) (breakAt 2) () [1, 2] := by
  have harray : NgxArray.elements id ⟨1, 2⟩ = [1, 2] := rfl
  have hlist : partsElements id twoParts.parts = [1, 2] := rfl
  have hqueue : [1, 2].map id = [1, 2] := rfl
  refine (each_macros_agree_iff harray hlist threeLinks_isRing hqueue (breakAt 2) ()).mpr ?_
  intro pre post hsplit hpost
  obtain _ | ⟨p, _ | ⟨q, pre⟩⟩ := pre
  · trivial
  · obtain ⟨rfl, -⟩ := List.cons.inj hsplit
    exact ⟨by decide, trivial⟩
  · obtain ⟨-, hrest⟩ := List.cons.inj hsplit
    obtain ⟨-, hnil⟩ := List.cons.inj hrest
    obtain ⟨-, rfl⟩ := List.append_eq_nil_iff.mp hnil.symm
    exact absurd rfl hpost

/-- A break at `1`: the macro for lists goes on with `2`. -/
theorem list_each_runs_past_break :
    (NgxArray.elements id ⟨1, 2⟩ = [1, 2] ∧ partsElements id twoParts.parts = [1, 2] ∧
        IsRing threeLinks 0 [1, 2]) ∧
      ¬ (RunsOn (ngxArrayEach id ⟨1, 2⟩) (breakAt 1) () (upToBreak (breakAt 1) () [1, 2]) ∧
          RunsOn (ngxListEach id twoParts) (breakAt 1) () (upToBreak (breakAt 1) () [1, 2]) ∧
          RunsOn (ngxQueueEach threeLinks 0 id) (breakAt 1) ()
            (upToBreak (breakAt 1) () [1, 2])) := by
  refine ⟨⟨rfl, rfl, threeLinks_isRing⟩, ?_⟩
  rintro ⟨-, hlist, -⟩
  have heq := hlist.unique (ngxListEach_runsOn id twoParts (breakAt 1) ())
  revert heq
  decide

end NgxNdg
