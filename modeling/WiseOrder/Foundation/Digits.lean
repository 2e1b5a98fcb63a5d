import Mathlib.Data.Nat.Digits.Defs
import Mathlib.Data.String.Basic

/-! Numbers written in decimal to a fixed width. As texts they are in the order of the numbers,
and what comes after them decides only between equal ones. -/
namespace Digits

/-- The last `width` decimal digits of a number, with leading zeros. -/
def digits : Nat → Nat → List Char
  | 0, _ => []
  | width + 1, n => digits width (n / 10) ++ [(n % 10).digitChar]

section
variable {m n a b width : Nat} {rest rest' : List Char}

theorem digitChar_lt (left : a < 10) (right : b < 10) : a.digitChar < b.digitChar ↔ a < b := by
  rw [Char.lt_def, UInt32.lt_iff_toNat_lt]
  change a.digitChar.toNat < b.digitChar.toNat ↔ a < b
  rw [Nat.toNat_digitChar_of_lt_ten left, Nat.toNat_digitChar_of_lt_ten right]
  omega

theorem digitChar_inj (left : a < 10) (right : b < 10) : a.digitChar = b.digitChar ↔ a = b := by
  rw [← Char.toNat_inj, Nat.toNat_digitChar_of_lt_ten left, Nat.toNat_digitChar_of_lt_ten right]
  omega

theorem digits_zero (width : Nat) : digits width 0 = List.replicate width '0' := by
  induction width with
  | zero => rfl
  | succ width ih =>
      rw [digits, Nat.zero_div, ih, List.replicate_succ']
      rfl

/-- A number that fits is padded with zeros up to the width. -/
theorem padded (fits : n < 10 ^ width) (wide : 0 < width) :
    List.replicate (width - (Nat.toDigits 10 n).length) '0' ++ Nat.toDigits 10 n =
      digits width n := by
  induction width generalizing n with
  | zero => exact absurd wide (Nat.lt_irrefl 0)
  | succ width ih =>
      have shorter : n / 10 < 10 ^ width := by
        rw [Nat.pow_succ] at fits
        omega
      rw [Nat.toDigits_eq_if (by decide), digits]
      split
      · rename_i small
        rw [Nat.div_eq_of_lt small, digits_zero, Nat.mod_eq_of_lt small]
        rfl
      · rename_i large
        obtain _ | width := width
        · simp only [Nat.pow_zero] at shorter
          omega
        · rw [← ih shorter (Nat.succ_pos _), List.length_append, List.length_singleton,
            Nat.add_sub_add_right, List.append_assoc]

/-- The numbers are compared first. -/
theorem digits_lt (left : m < 10 ^ width) (right : n < 10 ^ width) :
    digits width m ++ rest < digits width n ++ rest' ↔ m < n ∨ m = n ∧ rest < rest' := by
  induction width generalizing m n rest rest' with
  | zero =>
      rw [Nat.pow_zero, Nat.lt_one_iff] at left right
      simp [digits, left, right]
  | succ width ih =>
      rw [Nat.pow_succ] at left right
      rw [digits, digits, List.append_assoc, List.append_assoc, ih (by omega) (by omega),
        List.singleton_append,
        List.singleton_append, List.cons_lt_cons_iff,
          digitChar_lt (Nat.mod_lt _ (by decide)) (Nat.mod_lt _ (by decide)),
        digitChar_inj (Nat.mod_lt _ (by decide)) (Nat.mod_lt _ (by decide))]
      have split : m = n ↔ m / 10 = n / 10 ∧ m % 10 = n % 10 := by omega
      have order : m < n ↔ m / 10 < n / 10 ∨ m / 10 = n / 10 ∧ m % 10 < n % 10 := by omega
      rw [split, order]
      tauto

end

end Digits
