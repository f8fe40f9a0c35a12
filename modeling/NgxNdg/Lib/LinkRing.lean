import Mathlib.Data.List.Chain
import Mathlib.Data.List.Nodup
import Mathlib.Logic.Function.Basic

/-!
# Circular doubly linked lists

A heap of links gives every link a next and a previous one. A ring is a sentinel and the list of
the other links, in the order in which `next` meets them on the way back to the sentinel.

## Main definitions

- `Links`: the two fields of every link
- `IsRing`: the ring of a sentinel and the links behind it
- `Links.linkAfter`: a link put behind another
- `Links.unlink`: a link taken out
- `InsertedBefore`: a ring whose traversal has one more link, immediately before another
- `Rings`: any number of rings that share no link

## Design notes

The sentinel is a link like the others: `IsRing.rotate` makes any link of a ring its sentinel, so
that an edit is proved at the sentinel alone and carried to the place where it happens.
-/

namespace LinkRing

/-- The fields `next` and `prev` of every link. -/
@[ext] structure Links (α : Type*) where
  next : α → α
  prev : α → α

variable {α : Type*}

/-- The links `l` are met on the way from the sentinel `a` back to it, and every link of the ring
is the previous one of its next. -/
structure IsRing (m : Links α) (a : α) (l : List α) : Prop where
  nodup : (a :: l).Nodup
  traversal : (a :: (l ++ [a])).IsChain fun b c => m.next b = c
  prev_next : ∀ n ∈ a :: l, m.prev (m.next n) = n

/-- The list `t'` is `t` with `x` placed immediately before `q`. -/
def PlacedBefore (q x : α) (t t' : List α) : Prop :=
  ∃ s r, t = s ++ q :: r ∧ t' = s ++ x :: q :: r

/-- The links in `m` are a ring, whose traversal is the one over `l` with `x` before `q`. -/
def InsertedBefore (m : Links α) (a : α) (l : List α) (q x : α) : Prop :=
  ∃ l', IsRing m a l' ∧ PlacedBefore q x (l ++ [a]) (l' ++ [a])

/-- Write the field `next` of the link `a`. -/
def Links.setNext [DecidableEq α] (m : Links α) (a b : α) : Links α :=
  { m with next := Function.update m.next a b }

/-- Write the field `prev` of the link `a`. -/
def Links.setPrev [DecidableEq α] (m : Links α) (a b : α) : Links α :=
  { m with prev := Function.update m.prev a b }

/-- The link `b` is next to `a`, and `a` previous to `b`. -/
def Linked (m : Links α) (a b : α) : Prop := m.next a = b ∧ m.prev b = a

/-- The heap with `x` put behind the link `p`. -/
def Links.linkAfter [DecidableEq α] (m : Links α) (p x : α) : Links α where
  next := Function.update (Function.update m.next x (m.next p)) p x
  prev := Function.update (Function.update m.prev (m.next p) x) x p

/-- The heap with the neighbours of the link `x` joined. -/
def Links.unlink [DecidableEq α] (m : Links α) (x : α) : Links α where
  next := Function.update m.next (m.prev x) (m.next x)
  prev := Function.update m.prev (m.next x) (m.prev x)

/-- The heaps differ at no link outside of `t`. -/
def AgreeOff (m m' : Links α) (t : List α) : Prop :=
  ∀ b, b ∉ t → m'.next b = m.next b ∧ m'.prev b = m.prev b

/-- The sentinels `a` with `rings a = some l` have rings, and no two of these share a link. -/
structure Rings (m : Links α) (rings : α → Option (List α)) : Prop where
  ring : ∀ a l, rings a = some l → IsRing m a l
  apart : ∀ a l a' l', rings a = some l → rings a' = some l' → a ≠ a' → (a :: l).Disjoint (a' :: l')

variable {m m' : Links α} {a b p q x : α} {l s r t : List α}

theorem mem_traversal_iff : b ∈ a :: (l ++ [a]) ↔ b ∈ a :: l := by
  simp only [List.mem_cons, List.mem_append, List.not_mem_nil, or_false]
  tauto

/-- A ring is a chain of links joined in both directions. -/
theorem isRing_iff :
    IsRing m a l ↔ (a :: l).Nodup ∧ (a :: (l ++ [a])).IsChain (Linked m) := by
  constructor
  · intro h
    refine ⟨h.nodup, h.traversal.imp_of_mem_imp fun b c hb _ hbc => ⟨hbc, ?_⟩⟩
    rw [← hbc]
    exact h.prev_next b (mem_traversal_iff.mp hb)
  · rintro ⟨hnodup, hchain⟩
    refine ⟨hnodup, hchain.imp fun _ _ h => h.1, fun n hn => ?_⟩
    obtain ⟨s, r, hsplit⟩ := List.append_of_mem hn
    obtain ⟨c, t, hct⟩ := List.exists_cons_of_ne_nil (List.concat_ne_nil a r)
    rw [← List.cons_append, hsplit, List.append_assoc, List.cons_append, hct,
      List.isChain_append_cons_cons] at hchain
    obtain ⟨hnext, hprev⟩ := hchain.2.1
    rw [hnext, hprev]

/-- Any link of a ring may be taken for its sentinel. -/
theorem IsRing.rotate (h : IsRing m a (s ++ b :: r)) : IsRing m b (r ++ a :: s) := by
  obtain ⟨hnodup, hchain⟩ := isRing_iff.mp h
  rw [List.append_assoc, List.cons_append, List.isChain_cons_split] at hchain
  rw [isRing_iff, List.append_assoc, List.cons_append, List.isChain_cons_split]
  have hperm : (a :: (s ++ b :: r)).Perm (b :: (r ++ a :: s)) :=
    @List.perm_append_comm _ (a :: s) (b :: r)
  exact ⟨hperm.nodup_iff.mp hnodup, hchain.2, hchain.1⟩

/-- Every link of a ring is met immediately behind its previous one. -/
theorem IsRing.exists_split (h : IsRing m a l) (hq : q ∈ a :: l) :
    ∃ s r t, l = s ++ r ∧ r ++ [a] = q :: t ∧
      Linked m ((a :: s).getLast (List.cons_ne_nil a s)) q := by
  have hsplit : ∃ s r t, l = s ++ r ∧ r ++ [a] = q :: t := by
    obtain rfl | hql := List.mem_cons.mp hq
    · exact ⟨l, [], [], (List.append_nil l).symm, rfl⟩
    · obtain ⟨s, r, rfl⟩ := List.append_of_mem hql
      exact ⟨s, q :: r, r ++ [a], rfl, rfl⟩
  obtain ⟨s, r, t, rfl, hrt⟩ := hsplit
  refine ⟨s, r, t, rfl, hrt, ?_⟩
  have hchain := (isRing_iff.mp h).2
  rw [List.append_assoc, hrt, ← List.cons_append, List.isChain_append] at hchain
  exact hchain.2.2 _ (List.getLast?_eq_getLast_of_ne_nil _) _ rfl

theorem IsRing.next_prev (h : IsRing m a l) (hq : q ∈ a :: l) : m.next (m.prev q) = q := by
  obtain ⟨s, r, t, -, -, hnext, hprev⟩ := h.exists_split hq
  rw [hprev, hnext]

theorem IsRing.prev_mem (h : IsRing m a l) (hq : q ∈ a :: l) : m.prev q ∈ a :: l := by
  obtain ⟨s, r, t, rfl, -, -, hprev⟩ := h.exists_split hq
  rw [hprev]
  exact List.mem_append_left r (List.getLast_mem (List.cons_ne_nil a s))

/-- The link before `q` in the traversal has `q` for its next. -/
theorem InsertedBefore.next_eq (h : InsertedBefore m a l q x) : m.next x = q := by
  obtain ⟨l', hring, s, r, -, hl'⟩ := h
  have hchain := hring.traversal
  rw [hl', ← List.cons_append, List.isChain_append_cons_cons] at hchain
  exact hchain.2.1

/-- The last link of a ring is the previous one of the sentinel. -/
theorem IsRing.prev_sentinel (h : IsRing m a l) :
    m.prev a = (a :: l).getLast (List.cons_ne_nil a l) := by
  obtain ⟨s, r, t, rfl, hrt, -, hprev⟩ := h.exists_split List.mem_cons_self
  cases r with
  | nil => simpa only [List.append_nil] using hprev
  | cons b r =>
    obtain ⟨rfl, -⟩ := List.cons.inj hrt
    have hmem : b ∈ s ++ b :: r := List.mem_append_right s List.mem_cons_self
    exact absurd hmem (List.nodup_cons.mp h.nodup).1

/-- The sentinel is its own previous link exactly when there is no other. -/
theorem IsRing.prev_eq_self_iff (h : IsRing m a l) : m.prev a = a ↔ l = [] := by
  rw [h.prev_sentinel]
  constructor
  · intro hlast
    by_contra hne
    rw [List.getLast_cons hne] at hlast
    exact (List.nodup_cons.mp h.nodup).1 (hlast ▸ List.getLast_mem hne)
  · rintro rfl
    rfl

theorem IsRing.next_mem (h : IsRing m a l) (hp : p ∈ a :: l) : m.next p ∈ a :: l := by
  obtain ⟨s, r, hsplit⟩ := List.append_of_mem hp
  obtain ⟨c, t, hct⟩ := List.exists_cons_of_ne_nil (List.concat_ne_nil a r)
  have htraversal : a :: (l ++ [a]) = s ++ p :: c :: t := by
    rw [← List.cons_append, hsplit, List.append_assoc, List.cons_append, hct]
  have hchain := h.traversal
  rw [htraversal, List.isChain_append_cons_cons] at hchain
  rw [hchain.2.1, ← mem_traversal_iff, htraversal]
  simp

/-- A ring depends on its own links alone. -/
theorem IsRing.congr (h : IsRing m a l) (hagree : AgreeOff m m' t) (hoff : (a :: l).Disjoint t) :
    IsRing m' a l := by
  obtain ⟨hnodup, hchain⟩ := isRing_iff.mp h
  refine isRing_iff.mpr ⟨hnodup, hchain.imp_of_mem_imp fun b c hb hc hlinked => ?_⟩
  have hsame : ∀ d ∈ a :: (l ++ [a]), m'.next d = m.next d ∧ m'.prev d = m.prev d :=
    fun d hd => hagree d (hoff (mem_traversal_iff.mp hd))
  exact ⟨(hsame b hb).1.trans hlinked.1, (hsame c hc).2.trans hlinked.2⟩

/-- The links of a ring of one are those of the sentinel. -/
theorem isRing_nil_iff : IsRing m a [] ↔ Linked m a a := by
  rw [isRing_iff]
  simp

theorem rings_none (m : Links α) : Rings m fun _ => none where
  ring := fun _ _ h => nomatch h
  apart := fun _ _ _ _ h => nomatch h

variable [DecidableEq α]

/-- A link put behind `p` leaves the other pairs linked. -/
theorem Linked.linkAfter {c : α} (h : Linked m b c) (hb : b ≠ x) (hc : c ≠ x)
    (hnext : c ≠ m.next p) : Linked (m.linkAfter p x) b c := by
  have hp : b ≠ p := fun hbp => hnext (hbp ▸ h.1.symm)
  constructor
  · show Function.update (Function.update m.next x (m.next p)) p x b = c
    rw [Function.update_of_ne hp, Function.update_of_ne hb]
    exact h.1
  · show Function.update (Function.update m.prev (m.next p) x) x p c = b
    rw [Function.update_of_ne hc, Function.update_of_ne hnext]
    exact h.2

/-- A link put behind the sentinel of a ring is the first of the new ring. -/
theorem IsRing.linkAfter (h : IsRing m a l) (hx : x ∉ a :: l) :
    IsRing (m.linkAfter a x) a (x :: l) := by
  obtain ⟨hnodup, hchain⟩ := isRing_iff.mp h
  obtain ⟨c, t, hct⟩ := List.exists_cons_of_ne_nil (List.concat_ne_nil a l)
  have hperm : (a :: l).Perm (c :: t) := hct ▸ (List.perm_append_singleton a l).symm
  have hcx : ∀ b ∈ c :: t, b ≠ x := fun b hb hbx => hx (hbx ▸ hperm.mem_iff.mpr hb)
  have hxa : x ≠ a := fun hxa => hx (hxa ▸ List.mem_cons_self)
  rw [isRing_iff]
  refine ⟨List.nodup_cons.mpr ⟨?_, ?_⟩, ?_⟩
  · rw [List.mem_cons, not_or]
    exact ⟨hxa.symm, (List.nodup_cons.mp hnodup).1⟩
  · exact List.nodup_cons.mpr ⟨fun hxl => hx (List.mem_cons_of_mem a hxl), hnodup.of_cons⟩
  rw [hct, List.isChain_cons_cons] at hchain
  obtain ⟨⟨hnext, -⟩, hrest⟩ := hchain
  rw [List.cons_append, hct, List.isChain_cons_cons, List.isChain_cons_cons]
  refine ⟨⟨?_, ?_⟩, ⟨?_, ?_⟩, ?_⟩
  · exact Function.update_self _ _ _
  · exact Function.update_self _ _ _
  · show Function.update (Function.update m.next x (m.next a)) a x x = c
    rw [Function.update_of_ne hxa, Function.update_self]
    exact hnext
  · show Function.update (Function.update m.prev (m.next a) x) x a c = x
    rw [Function.update_of_ne (hcx c List.mem_cons_self), hnext, Function.update_self]
  · refine hrest.imp_of_mem_tail_imp fun b b' hb hb' hlinked => ?_
    apply hlinked.linkAfter (hcx b hb) (hcx b' (List.mem_cons_of_mem c hb'))
    rw [hnext]
    exact fun hbc => (List.nodup_cons.mp (hperm.nodup_iff.mp hnodup)).1 (hbc ▸ hb')

/-- A link put behind any link of a ring stands behind it in the new ring. -/
theorem IsRing.linkAfter_getLast (h : IsRing m a (s ++ r)) (hx : x ∉ a :: (s ++ r)) :
    IsRing (m.linkAfter ((a :: s).getLast (List.cons_ne_nil a s)) x) a (s ++ x :: r) := by
  obtain rfl | ⟨s, p, rfl⟩ := List.eq_nil_or_concat s
  · exact h.linkAfter hx
  · rw [List.concat_eq_append, List.append_assoc, List.singleton_append] at h hx ⊢
    have hp : (a :: (s ++ [p])).getLast (List.cons_ne_nil a _) = p := by
      simp
    have hxp : x ∉ p :: (r ++ a :: s) := by
      simp only [List.mem_cons, List.mem_append] at hx ⊢
      tauto
    rw [hp]
    exact (h.rotate.linkAfter hxp).rotate (s := x :: r)

/-- **Insertion.** A link put behind the previous one of `q` is met immediately before `q`. -/
theorem IsRing.linkAfter_prev (h : IsRing m a l) (hq : q ∈ a :: l) (hx : x ∉ a :: l) :
    InsertedBefore (m.linkAfter (m.prev q) x) a l q x := by
  obtain ⟨s, r, t, rfl, hrt, -, hprev⟩ := h.exists_split hq
  refine ⟨s ++ x :: r, ?_, s, t, ?_, ?_⟩
  · rw [hprev]
    exact h.linkAfter_getLast hx
  · rw [List.append_assoc, hrt]
  · rw [List.append_assoc, List.cons_append, hrt]

/-- A link put behind the last one of a ring is the last of the new ring. -/
theorem IsRing.linkAfter_last (h : IsRing m a l) (hx : x ∉ a :: l) :
    IsRing (m.linkAfter (m.prev a) x) a (l ++ [x]) := by
  rw [h.prev_sentinel]
  have hring : IsRing m a (l ++ []) := (List.append_nil l).symm ▸ h
  exact hring.linkAfter_getLast ((List.append_nil l).symm ▸ hx)

/-- A link put behind the link `p` of a ring stands behind it in the new ring. -/
theorem IsRing.linkAfter_mem (h : IsRing m a (s ++ p :: r)) (hx : x ∉ a :: (s ++ p :: r)) :
    IsRing (m.linkAfter p x) a (s ++ p :: x :: r) := by
  have hsplit : s ++ p :: r = (s ++ [p]) ++ r := by simp
  rw [hsplit] at h hx
  have hlast : (a :: (s ++ [p])).getLast (List.cons_ne_nil a _) = p := by simp
  have hring := h.linkAfter_getLast hx
  rw [hlast] at hring
  simpa using hring

/-- Putting a link behind one of a ring writes to the ring and to the new link alone. -/
theorem IsRing.agreeOff_linkAfter (h : IsRing m a l) (hp : p ∈ a :: l) :
    AgreeOff m (m.linkAfter p x) (x :: a :: l) := by
  intro b hb
  rw [List.mem_cons, not_or] at hb
  have hne : ∀ c ∈ a :: l, b ≠ c := fun c hc hbc => hb.2 (hbc ▸ hc)
  constructor
  · show Function.update (Function.update m.next x (m.next p)) p x b = m.next b
    rw [Function.update_of_ne (hne p hp), Function.update_of_ne hb.1]
  · show Function.update (Function.update m.prev (m.next p) x) x p b = m.prev b
    rw [Function.update_of_ne hb.1, Function.update_of_ne (hne _ (h.next_mem hp))]

/-- The first link of a ring taken out. -/
theorem IsRing.unlink_head (h : IsRing m a (x :: l)) : IsRing (m.unlink x) a l := by
  obtain ⟨hnodup, hchain⟩ := isRing_iff.mp h
  obtain ⟨c, t, hct⟩ := List.exists_cons_of_ne_nil (List.concat_ne_nil a l)
  rw [List.cons_append, hct, List.isChain_cons_cons, List.isChain_cons_cons] at hchain
  obtain ⟨⟨hfirst, hprev⟩, ⟨hnext, -⟩, hrest⟩ := hchain
  obtain ⟨hax, hxl⟩ := List.nodup_cons.mp hnodup
  rw [List.mem_cons, not_or] at hax
  have hnodup' : (a :: l).Nodup := List.nodup_cons.mpr ⟨hax.2, hxl.of_cons⟩
  have hct' : (c :: t).Nodup := hct ▸ ((List.perm_append_singleton a l).nodup_iff.mpr hnodup')
  rw [isRing_iff, hct, List.isChain_cons_cons]
  refine ⟨hnodup', ⟨?_, ?_⟩, ?_⟩
  · show Function.update m.next (m.prev x) (m.next x) a = c
    rw [hprev, Function.update_self, hnext]
  · show Function.update m.prev (m.next x) (m.prev x) c = a
    rw [hnext, Function.update_self, hprev]
  · have hx : x ∉ c :: t := by
      rw [← hct, List.mem_append, List.mem_singleton, not_or]
      exact ⟨(List.nodup_cons.mp hxl).1, fun hxa => hax.1 hxa.symm⟩
    refine hrest.imp_of_mem_tail_imp fun b b' _ hb' hlinked => ?_
    have hba : b ≠ a := by
      rintro rfl
      exact hx (List.mem_cons_of_mem c (hfirst.symm.trans hlinked.1 ▸ hb'))
    have hbc : b' ≠ c := fun hbc => (List.nodup_cons.mp hct').1 (hbc ▸ hb')
    constructor
    · show Function.update m.next (m.prev x) (m.next x) b = b'
      rw [hprev, Function.update_of_ne hba, hlinked.1]
    · show Function.update m.prev (m.next x) (m.prev x) b' = b
      rw [hnext, Function.update_of_ne hbc, hlinked.2]

/-- **Removal.** Any link but the sentinel taken out of a ring. -/
theorem IsRing.unlink (h : IsRing m a (s ++ x :: r)) : IsRing (m.unlink x) a (s ++ r) := by
  obtain rfl | ⟨s, p, rfl⟩ := List.eq_nil_or_concat s
  · exact h.unlink_head
  · rw [List.concat_eq_append, List.append_assoc, List.singleton_append] at h ⊢
    exact h.rotate.unlink_head.rotate

/-- Taking a link out of a ring writes to the ring alone. -/
theorem IsRing.agreeOff_unlink (h : IsRing m a l) (hx : x ∈ a :: l) :
    AgreeOff m (m.unlink x) (a :: l) := by
  intro b hb
  have hne : ∀ c ∈ a :: l, b ≠ c := fun c hc hbc => hb (hbc ▸ hc)
  exact ⟨Function.update_of_ne (hne _ (h.prev_mem hx)) _ _,
    Function.update_of_ne (hne _ (h.next_mem hx)) _ _⟩

variable {rings : α → Option (List α)}

/-- **Frame rule.** A change of one ring that writes to its links, and to some that are in no
ring, leaves the other rings as they are. -/
theorem Rings.update (h : Rings m rings) {l' : List α} (hring : IsRing m' a l')
    (hagree : AgreeOff m m' t) (hnew : ∀ b ∈ a :: l', b ∈ t)
    (hoff : ∀ a₁ l₁, rings a₁ = some l₁ → a₁ ≠ a → (a₁ :: l₁).Disjoint t) :
    Rings m' (Function.update rings a (some l')) := by
  have hother : ∀ a₁ l₁, Function.update rings a (some l') a₁ = some l₁ →
      a₁ = a ∧ l₁ = l' ∨ a₁ ≠ a ∧ rings a₁ = some l₁ := by
    intro a₁ l₁ h₁
    by_cases heq : a₁ = a
    · subst heq
      rw [Function.update_self] at h₁
      exact .inl ⟨rfl, (Option.some.inj h₁).symm⟩
    · rw [Function.update_of_ne heq] at h₁
      exact .inr ⟨heq, h₁⟩
  constructor
  · intro a₁ l₁ h₁
    obtain ⟨rfl, rfl⟩ | ⟨hne, hold⟩ := hother a₁ l₁ h₁
    · exact hring
    · exact (h.ring a₁ l₁ hold).congr hagree (hoff a₁ l₁ hold hne)
  · intro a₁ l₁ a₂ l₂ h₁ h₂ hne
    obtain ⟨rfl, rfl⟩ | ⟨hne₁, hold₁⟩ := hother a₁ l₁ h₁
    · obtain ⟨rfl, -⟩ | ⟨hne₂, hold₂⟩ := hother a₂ l₂ h₂
      · exact absurd rfl hne
      · exact fun b hb₁ hb₂ => hoff a₂ l₂ hold₂ hne₂ hb₂ (hnew b hb₁)
    · obtain ⟨rfl, rfl⟩ | ⟨-, hold₂⟩ := hother a₂ l₂ h₂
      · exact fun b hb₁ hb₂ => hoff a₁ l₁ hold₁ hne₁ hb₁ (hnew b hb₂)
      · exact h.apart a₁ l₁ a₂ l₂ hold₁ hold₂ hne

end LinkRing
