import Mathlib.Algebra.Order.Ring.Int
import Mathlib.Data.BitVec
import Mathlib.Data.List.Count
import Mathlib.Logic.Function.Basic

/-!
# Counters that follow a list of holders

Several holders charge their references to keys, and each key has a counter. The
counters are balanced when every counter is the number of the holders charged to
its key. Holders are listed, so two holders of one key are counted twice. The counters may be
of any kind that can be raised and lowered by one, also one that wraps around.

## Main definitions

- `load key held k`: the number of the holders `held` charged to `k`
- `Balanced key counter held`: every counter is the load of its key
- `bump counter k d`: add `d` to the counter of `k`
-/

namespace Ledger

variable {κ ι α : Type*} [DecidableEq κ] [AddGroupWithOne α]

/-- The number of holders charged to the key `k`. -/
def load (key : ι → κ) (held : List ι) (k : κ) : ℕ :=
  held.countP fun i => key i = k

/-- Every counter is the number of the holders of its key. -/
def Balanced (key : ι → κ) (counter : κ → α) (held : List ι) : Prop :=
  ∀ k, counter k = load key held k

/-- Add `d` to the counter of `k` and leave the others alone. -/
def bump (counter : κ → α) (k : κ) (d : α) : κ → α :=
  Function.update counter k (counter k + d)

variable {key : ι → κ} {counter : κ → α} {held : List ι}

@[simp] theorem bump_self (counter : κ → α) (k : κ) (d : α) :
    bump counter k d k = counter k + d := by
  simp [bump]

theorem bump_of_ne (counter : κ → α) {k k' : κ} (d : α) (h : k' ≠ k) :
    bump counter k d k' = counter k' := by
  simp [bump, h]

@[simp] theorem load_nil (k : κ) : load key ([] : List ι) k = 0 := rfl

@[simp] theorem load_cons (i : ι) (k : κ) :
    load key (i :: held) k = load key held k + if key i = k then 1 else 0 := by
  simp [load, List.countP_cons]

theorem balanced_nil : Balanced key (fun _ => (0 : α)) ([] : List ι) := fun _ => Nat.cast_zero.symm

/-- No balanced counter is below zero. -/
theorem Balanced.nonneg {counter : κ → ℤ} (h : Balanced key counter held) (k : κ) :
    0 ≤ counter k := by
  rw [h k]
  exact Int.natCast_nonneg _

/-- A new holder and a raised counter keep the balance. -/
theorem Balanced.acquire (h : Balanced key counter held) (i : ι) :
    Balanced key (bump counter (key i) 1) (i :: held) := by
  intro k
  by_cases hk : k = key i
  · subst hk
    simp [h (key i)]
  · rw [bump_of_ne counter 1 hk, h k, load_cons, if_neg (Ne.symm hk)]
    simp

/-- A holder that leaves with a lowered counter keeps the balance. -/
theorem Balanced.release [BEq ι] [LawfulBEq ι] (h : Balanced key counter held) {i : ι}
    (hi : i ∈ held) : Balanced key (bump counter (key i) (-1)) (held.erase i) := by
  have hperm : held.Perm (i :: held.erase i) := List.perm_cons_erase hi
  have hload (k : κ) : load key held k = load key (i :: held.erase i) k :=
    hperm.countP_eq _
  intro k
  by_cases hk : k = key i
  · subst hk
    rw [bump_self, h (key i), hload]
    simp
  · rw [bump_of_ne counter (-1) hk, h k, hload, load_cons, if_neg (Ne.symm hk)]
    simp

/-- Counters read off records: changing one record as `bump` does keeps them as balanced. -/
theorem Balanced.of_update {σ : Type*} {f : σ → κ → α} {record : κ → σ} {k : κ} {v : σ} {d : α}
    (h : Balanced key (bump (fun k => f (record k) k) k d) held) (hv : f v k = f (record k) k + d) :
    Balanced key (fun k' => f (Function.update record k v k') k') held := by
  intro k'
  rw [← h k']
  by_cases hk : k' = k
  · subst hk
    simp [hv]
  · simp [hk, bump_of_ne]

/-- A change of one record that its counter does not see keeps the balance. -/
theorem Balanced.of_update_same {σ : Type*} {f : σ → κ → α} {record : κ → σ} {k : κ} {v : σ}
    (h : Balanced key (fun k => f (record k) k) held) (hv : f v k = f (record k) k) :
    Balanced key (fun k' => f (Function.update record k v k') k') held := by
  intro k'
  rw [← h k']
  by_cases hk : k' = k
  · subst hk
    simp [hv]
  · simp [hk]

/-- A holder that enters without raising the counter breaks the balance. -/
theorem Balanced.not_cons [NeZero (1 : α)] (h : Balanced key counter held) (i : ι) :
    ¬ Balanced key counter (i :: held) := by
  intro h'
  have hraised := h' (key i)
  rw [h (key i), load_cons, if_pos rfl, Nat.cast_add_one, left_eq_add] at hraised
  exact one_ne_zero hraised

/-- A holder that leaves without lowering the counter breaks the balance. -/
theorem Balanced.not_erase [NeZero (1 : α)] [BEq ι] [LawfulBEq ι]
    (h : Balanced key counter held) {i : ι} (hi : i ∈ held) :
    ¬ Balanced key counter (held.erase i) := by
  intro h'
  refine h'.not_cons i fun k => ?_
  rw [h k]
  exact congrArg Nat.cast ((List.perm_cons_erase hi).countP_eq _)

/-- Changing the holders without moving them to other keys keeps the loads. -/
theorem load_map {f : ι → ι} (hf : ∀ i, key (f i) = key i) (k : κ) :
    load key (held.map f) k = load key held k := by
  simp only [load, List.countP_map]
  exact List.countP_congr fun i _ => by simp [hf]

theorem Balanced.map (h : Balanced key counter held) {f : ι → ι} (hf : ∀ i, key (f i) = key i) :
    Balanced key counter (held.map f) := fun k => by rw [h k, load_map hf]

/-- Counters of `w` bits that do not wrap are the loads themselves. -/
theorem toNat_eq_load_iff {w : ℕ} {counter : κ → BitVec w} :
    (∀ k, (counter k).toNat = load key held k) ↔
      Balanced key counter held ∧ ∀ k, load key held k < 2 ^ w := by
  have hcast (n : ℕ) : ((n : BitVec w)).toNat = n % 2 ^ w := by
    rw [BitVec.natCast_eq_ofNat, BitVec.toNat_ofNat]
  constructor
  · intro h
    have hlt (k : κ) : load key held k < 2 ^ w := h k ▸ (counter k).isLt
    refine ⟨fun k => BitVec.eq_of_toNat_eq ?_, hlt⟩
    rw [hcast, Nat.mod_eq_of_lt (hlt k), h k]
  · rintro ⟨h, hlt⟩ k
    rw [h k, hcast, Nat.mod_eq_of_lt (hlt k)]

end Ledger
