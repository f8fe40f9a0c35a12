import Mathlib.Data.List.Basic
import Mathlib.Data.List.Range
import Mathlib.Logic.Function.Basic

/-!
# Cells of a flat memory

A memory is a function from addresses to cells. `cells m a b` lists the cells of the
half-open interval `[a, b)`; `fill m a xs` writes the list `xs` from `a` on.
-/

namespace Memory

variable {β : Type*}

/-- The cells at the addresses `a`, `a + 1`, ..., `b - 1`. -/
def cells (m : ℕ → β) (a b : ℕ) : List β := (List.range' a (b - a)).map m

/-- Write the list `xs` from the address `a` on. -/
def fill (m : ℕ → β) (a : ℕ) (xs : List β) : ℕ → β := fun x =>
  if a ≤ x then (xs[x - a]?).getD (m x) else m x

/-- The first address with the value `c` in `[a, b)`. -/
def scan [DecidableEq β] (m : ℕ → β) (c : β) (a b : ℕ) : Option ℕ :=
  (List.range' a (b - a)).find? fun x => m x == c

@[simp] theorem length_cells (m : ℕ → β) (a b : ℕ) : (cells m a b).length = b - a := by
  simp [cells]

@[simp] theorem cells_self (m : ℕ → β) (a : ℕ) : cells m a a = [] := by
  simp [cells]

theorem cells_eq_nil_iff {m : ℕ → β} {a b : ℕ} : cells m a b = [] ↔ b ≤ a := by
  rw [← List.length_eq_zero_iff, length_cells]
  omega

theorem cells_append {m : ℕ → β} {a b c : ℕ} (hab : a ≤ b) (hbc : b ≤ c) :
    cells m a b ++ cells m b c = cells m a c := by
  rw [cells, cells, cells, ← List.map_append]
  have hb : b = a + (b - a) := by omega
  have hc : c - a = (b - a) + (c - b) := by omega
  rw [hc]
  conv_lhs => rw [hb, show a + (b - a) - a = b - a by omega]
  rw [List.range'_append_1, show c - (a + (b - a)) = c - b by omega]

theorem cells_cons {m : ℕ → β} {a b : ℕ} (h : a < b) :
    cells m a b = m a :: cells m (a + 1) b := by
  have hlen : b - a = b - (a + 1) + 1 := by omega
  rw [cells, hlen, List.range'_succ, List.map_cons, cells]

/-- Two memories that agree on an interval have the same cells there. -/
theorem cells_congr {m m' : ℕ → β} {a b : ℕ} (h : ∀ x, a ≤ x → x < b → m x = m' x) :
    cells m a b = cells m' a b := by
  refine List.map_congr_left fun x hx => ?_
  rw [List.mem_range'_1] at hx
  exact h x hx.1 (by omega)

theorem mem_cells {m : ℕ → β} {a b : ℕ} {y : β} :
    y ∈ cells m a b ↔ ∃ x, a ≤ x ∧ x < b ∧ m x = y := by
  simp only [cells, List.mem_map, List.mem_range'_1]
  constructor
  · rintro ⟨x, hx, rfl⟩
    exact ⟨x, hx.1, by omega, rfl⟩
  · rintro ⟨x, h1, h2, rfl⟩
    exact ⟨x, ⟨h1, by omega⟩, rfl⟩

theorem fill_of_lt {m : ℕ → β} {a x : ℕ} {xs : List β} (h : x < a) : fill m a xs x = m x := by
  rw [fill, if_neg (by omega)]

theorem fill_of_ge {m : ℕ → β} {a x : ℕ} {xs : List β} (h : a + xs.length ≤ x) :
    fill m a xs x = m x := by
  rw [fill, if_pos (by omega), List.getElem?_eq_none (by omega), Option.getD_none]

/-- One cell written is an update. -/
theorem fill_singleton (m : ℕ → β) (a : ℕ) (y : β) : fill m a [y] = Function.update m a y := by
  funext x
  obtain hlt | rfl | hgt := Nat.lt_trichotomy x a
  · rw [fill_of_lt hlt, Function.update_of_ne hlt.ne]
  · simp [fill]
  · rw [fill_of_ge (Nat.succ_le_of_lt hgt), Function.update_of_ne hgt.ne']

/-- The cells that were just written are the written list. -/
@[simp] theorem cells_fill_self (m : ℕ → β) (a : ℕ) (xs : List β) :
    cells (fill m a xs) a (a + xs.length) = xs := by
  apply List.ext_getElem
  · simp
  · intro i h1 h2
    simp [cells, fill, h2]

/-- Writing right behind an interval extends its cells by the written list. -/
theorem cells_fill_append {m : ℕ → β} {a b : ℕ} (xs : List β) (h : a ≤ b) :
    cells (fill m b xs) a (b + xs.length) = cells m a b ++ xs := by
  have hbelow : cells (fill m b xs) a b = cells m a b := cells_congr fun x _ hx => fill_of_lt hx
  rw [← cells_append h (Nat.le_add_right b xs.length), hbelow, cells_fill_self]

/-- An update right behind an interval extends its cells by one. -/
theorem cells_update_append {m : ℕ → β} {a b : ℕ} (y : β) (h : a ≤ b) :
    cells (Function.update m b y) a (b + 1) = cells m a b ++ [y] := by
  rw [← fill_singleton]
  exact cells_fill_append [y] h

variable [DecidableEq β]

theorem scan_eq_none_iff {m : ℕ → β} {c : β} {a b : ℕ} :
    scan m c a b = none ↔ c ∉ cells m a b := by
  rw [scan, List.find?_eq_none, mem_cells]
  simp only [List.mem_range'_1, beq_iff_eq]
  constructor
  · rintro h ⟨x, hax, hxb, hx⟩
    exact h x ⟨hax, by omega⟩ hx
  · rintro h x ⟨hax, hxb⟩ hx
    exact h ⟨x, hax, by omega, hx⟩

/-- A successful search stops at the first cell with the value. -/
theorem scan_eq_some {m : ℕ → β} {c : β} {a b p : ℕ} (h : scan m c a b = some p) :
    a ≤ p ∧ p < b ∧ cells m a b = cells m a p ++ c :: cells m (p + 1) b ∧ c ∉ cells m a p := by
  obtain ⟨hhit, hmem, hfirst⟩ := List.find?_range'_eq_some.mp h
  have hc : m p = c := beq_iff_eq.mp hhit
  rw [List.mem_range'_1] at hmem
  have hap : a ≤ p := hmem.1
  have hpb : p < b := by omega
  refine ⟨hap, hpb, ?_, ?_⟩
  · rw [← cells_append hap hpb.le, cells_cons hpb, hc]
  · rw [mem_cells]
    rintro ⟨x, hax, hxp, hx⟩
    have hmiss := hfirst x hax hxp
    simp [hx] at hmiss

end Memory
