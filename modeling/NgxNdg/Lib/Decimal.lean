import Mathlib.Data.Nat.Digits.Lemmas

/-!
# Decimal numerals in bytes

The numeral of a number is the text of its decimal digits, the most significant one first and
without leading zeros.

## Main definitions

- `value`: what a text of digits stands for
- `IsNumeral`: the text is the numeral of a number
- `digitByte`: the byte of a digit
-/

namespace Decimal

/-- The number that a text of digits stands for. -/
def value (text : List UInt8) : ℕ := text.foldl (fun n b => 10 * n + (b.toNat - 48)) 0

/-- The text is the numeral of `n`. -/
structure IsNumeral (n : ℕ) (text : List UInt8) : Prop where
  ne_nil : text ≠ []
  digit : ∀ b ∈ text, 48 ≤ b ∧ b ≤ 57
  value_eq : value text = n
  no_leading_zero : text.head? = some 48 → text = [48]

/-- The byte of a digit. -/
def digitByte (d : ℕ) : UInt8 := 48 + d.toUInt8

variable {d n k : ℕ}

theorem digitByte_bounds (h : d < 10) : 48 ≤ digitByte d ∧ digitByte d ≤ 57 := by
  revert d
  decide

theorem toNat_digitByte (h : d < 10) : (digitByte d).toNat - 48 = d := by
  revert d
  decide

theorem digitByte_ne_zero (h : d < 10) (hd : d ≠ 0) : digitByte d ≠ 48 := by
  revert d
  decide

/-- The text of the digits has the value that the digits have. -/
theorem value_map_reverse {ds : List ℕ} (h : ∀ d ∈ ds, d < 10) :
    value (ds.reverse.map digitByte) = Nat.ofDigits 10 ds := by
  rw [value, List.foldl_map, List.foldl_reverse]
  induction ds with
  | nil => rfl
  | cons d ds ih =>
    rw [List.foldr_cons, ih fun d hd => h d (List.mem_cons_of_mem _ hd),
      toNat_digitByte (h d List.mem_cons_self), Nat.ofDigits_cons]
    exact Nat.add_comm _ _

/-- The digits of a positive number are its numeral. -/
theorem isNumeral_digits (hn : n ≠ 0) : IsNumeral n ((Nat.digits 10 n).reverse.map digitByte) := by
  have hlt : ∀ d ∈ Nat.digits 10 n, d < 10 := fun d hd => Nat.digits_lt_base (by decide) hd
  have hne : Nat.digits 10 n ≠ [] := Nat.digits_ne_nil_iff_ne_zero.mpr hn
  refine ⟨?_, ?_, ?_, ?_⟩
  · rwa [ne_eq, List.map_eq_nil_iff, List.reverse_eq_nil_iff]
  · intro b hb
    obtain ⟨d, hd, rfl⟩ := List.mem_map.mp hb
    exact digitByte_bounds (hlt d (List.mem_reverse.mp hd))
  · rw [value_map_reverse hlt, Nat.ofDigits_digits]
  · intro hhead
    rw [List.head?_map, List.head?_reverse, List.getLast?_eq_getLast_of_ne_nil hne] at hhead
    refine absurd (Option.some.inj hhead) (digitByte_ne_zero (hlt _ (List.getLast_mem hne)) ?_)
    exact Nat.getLast_digit_ne_zero 10 hn

theorem isNumeral_zero : IsNumeral 0 [48] where
  ne_nil := List.cons_ne_nil 48 []
  digit := by
    intro b hb
    obtain rfl := List.mem_singleton.mp hb
    decide
  value_eq := rfl
  no_leading_zero := fun _ => rfl

end Decimal
