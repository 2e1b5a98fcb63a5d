import Mathlib.Algebra.Group.Nat.Defs
import Mathlib.Data.List.Basic
import Mathlib.Tactic.SplitIfs

/-! Binary floating point numbers of 64 bits: decimals are rounded to the nearest of
them, and each is written with the fewest decimal digits that read back as it. -/

/-- A mantissa of at most 53 bits, in units of `2 ^ (shift - 1074)`. It has all of
its bits unless the shift is none. -/
structure Binary64 where
  negative : Bool
  mantissa : Nat
  shift : Nat
  fits : mantissa < 2 ^ 53
  normal : shift ≠ 0 → 2 ^ 52 ≤ mantissa
  bounded : shift ≤ 2045
  deriving DecidableEq

namespace Binary64

/-! ### Rounding -/

/-- The quotient rounded to the nearest whole number, a tie to the even one. -/
def nearest (num den : Nat) : Nat :=
  let q := num / den
  let r := num % den
  if 2 * r < den then q
  else if den < 2 * r then q + 1
  else q + q % 2

/-- How many bits of the whole quotient go beyond the mantissa. -/
def excess (num den : Nat) : Nat := (num / den).log2 + 1 - 53

/-- The mantissa and the shift of a quotient of units, however large. -/
def round (num den : Nat) : Nat × Nat :=
  let shift := excess num den
  let mantissa := nearest num (den * 2 ^ shift)
  if mantissa = 2 ^ 53 then (2 ^ 52, shift + 1) else (mantissa, shift)

section
variable {num den mantissa shift factor : Nat}

theorem nearest_le (below : num / den < factor) : nearest num den ≤ factor := by
  have even : num / den + num / den % 2 ≤ num / den + 1 := by omega
  simp only [nearest]
  split_ifs <;> omega

theorem le_nearest (above : factor ≤ num / den) : factor ≤ nearest num den := by
  simp only [nearest]
  split_ifs <;> omega

theorem nearest_exact (positive : 0 < den) : nearest (factor * den) den = factor := by
  simp [nearest, Nat.mul_div_cancel _ positive, positive]

theorem nearest_scale (positive : 0 < factor) :
    nearest (num * factor) (den * factor) = nearest num den := by
  have less (a b : Nat) : a * factor < b * factor ↔ a < b := Nat.mul_lt_mul_right positive
  simp only [nearest, Nat.mul_div_mul_right _ _ positive, Nat.mul_mod_mul_right,
    ← Nat.mul_assoc, less]

theorem excess_below : num / (den * 2 ^ excess num den) < 2 ^ 53 := by
  rw [← Nat.div_div_eq_div_mul, Nat.div_lt_iff_lt_mul (Nat.two_pow_pos _), ← Nat.pow_add]
  by_cases zero : num / den = 0
  · rw [zero]
    exact Nat.two_pow_pos _
  · refine (Nat.log2_lt zero).mp ?_
    unfold excess
    omega

theorem le_excess (some : excess num den ≠ 0) :
    2 ^ 52 ≤ num / (den * 2 ^ excess num den) := by
  rw [← Nat.div_div_eq_div_mul, Nat.le_div_iff_mul_le (Nat.two_pow_pos _), ← Nat.pow_add]
  have large : num / den ≠ 0 := by
    intro zero
    simp [excess, zero] at some
  refine (Nat.le_log2 large).mp ?_
  unfold excess at some ⊢
  omega

theorem round_fits : (round num den).1 < 2 ^ 53 := by
  have most : nearest num (den * 2 ^ excess num den) ≤ 2 ^ 53 := nearest_le excess_below
  unfold round
  dsimp only
  split_ifs with full
  · exact Nat.pow_lt_pow_right (by decide) (by decide)
  · exact Nat.lt_of_le_of_ne most full

theorem round_normal (shifted : (round num den).2 ≠ 0) : 2 ^ 52 ≤ (round num den).1 := by
  unfold round at shifted ⊢
  dsimp only at shifted ⊢
  split_ifs with full
  · exact Nat.le_refl _
  · rw [if_neg full] at shifted
    exact le_nearest (le_excess shifted)

/-- What has a mantissa and a shift is rounded to these. -/
theorem round_exact (positive : 0 < den) (fits : mantissa < 2 ^ 53)
    (normal : shift ≠ 0 → 2 ^ 52 ≤ mantissa) :
    round (mantissa * 2 ^ shift * den) den = (mantissa, shift) := by
  have beyond : excess (mantissa * 2 ^ shift * den) den = shift := by
    unfold excess
    rw [Nat.mul_div_cancel _ positive]
    by_cases none : shift = 0
    · subst none
      rw [Nat.pow_zero, Nat.mul_one]
      by_cases zero : mantissa = 0
      · simp [zero]
      · have := (Nat.log2_lt zero).mpr fits
        omega
    · have least := normal none
      have log : (mantissa * 2 ^ shift).log2 = 52 + shift := by
        refine (Nat.log2_eq_iff ?_).mpr ⟨?_, ?_⟩
        · exact Nat.mul_ne_zero (by omega) (Nat.ne_of_gt (Nat.two_pow_pos _))
        · rw [Nat.pow_add]
          exact Nat.mul_le_mul_right _ least
        · rw [show 52 + shift + 1 = 53 + shift by omega, Nat.pow_add]
          exact Nat.mul_lt_mul_of_pos_right fits (Nat.two_pow_pos _)
      omega
  have rounded : nearest (mantissa * 2 ^ shift * den) (den * 2 ^ shift) = mantissa := by
    rw [Nat.mul_assoc, Nat.mul_comm (2 ^ shift)]
    exact nearest_exact (Nat.mul_pos positive (Nat.two_pow_pos _))
  simp only [round, beyond, rounded]
  rw [if_neg (Nat.ne_of_lt fits)]

/-- Only the quotient matters. -/
theorem round_scale (positive : 0 < factor) :
    round (num * factor) (den * factor) = round num den := by
  have same : excess (num * factor) (den * factor) = excess num den := by
    rw [excess, excess, Nat.mul_div_mul_right _ _ positive]
  simp only [round, same, Nat.mul_right_comm den factor, nearest_scale positive]

end

/-- The number nearest to a quotient of units, if it is not beyond all of them. -/
def ofRatio (negative : Bool) (num den : Nat) : Option Binary64 :=
  if bounded : (round num den).2 ≤ 2045 then
    some ⟨negative, _, _, round_fits, round_normal, bounded⟩
  else none

theorem ofRatio_scale {negative : Bool} {num factor : Nat} (den : Nat) (positive : 0 < factor) :
    ofRatio negative (num * factor) (den * factor) = ofRatio negative num den := by
  simp only [ofRatio, round_scale positive]

/-- The binary places of the smallest number. -/
def places : Nat := 1074

/-- One, in units of `2 ^ -1074`. -/
def one : Nat := 2 ^ places

/-- The number nearest to a decimal. -/
def ofDecimal (negative : Bool) (digits : Nat) (exponent : Int) : Option Binary64 :=
  if 0 ≤ exponent then ofRatio negative (digits * 10 ^ exponent.toNat * one) 1
  else ofRatio negative (digits * one) (10 ^ (-exponent).toNat)

/-- A whole number with a zero after the point. -/
theorem ofDecimal_point (negative : Bool) (digits zeros : Nat) :
    ofDecimal negative (digits * 10 ^ (zeros + 1)) (-1) = ofDecimal negative digits zeros := by
  have numbers : digits * 10 ^ (zeros + 1) * one = digits * 10 ^ zeros * one * 10 := by
    rw [Nat.pow_succ, ← Nat.mul_assoc, Nat.mul_right_comm]
  rw [ofDecimal, ofDecimal, if_neg (by decide), if_pos (Int.natCast_nonneg _), numbers]
  exact ofRatio_scale 1 (by decide)

/-! ### Arithmetic -/

/-- In units of `2 ^ -1074`. -/
def units (x : Binary64) : Int :=
  if x.negative then -(x.mantissa * 2 ^ x.shift : Nat) else (x.mantissa * 2 ^ x.shift : Nat)

/-- A number plus one, if the sum is not beyond all numbers. -/
def addOne (x : Binary64) : Option Binary64 :=
  let sum := x.units + one
  ofRatio (sum < 0) sum.natAbs 1

def isZero (x : Binary64) : Bool := x.mantissa = 0

def magnitude (x : Binary64) : Binary64 := { x with negative := false }

/-! ### Shortest decimals -/

/-- How many digits a quotient has before its decimal point. Below one these are the zeros
that follow the point, with a minus. -/
def point (num den : Nat) : Int :=
  if den ≤ num then (Nat.toDigits 10 (num / den)).length
  else 1 - ((Nat.toDigits 10 ((den - 1) / num)).length : Int)

/-- The quotient over a power of ten. -/
def scaled (num den : Nat) (exponent : Int) : Nat × Nat :=
  if 0 ≤ exponent then (num, den * 10 ^ exponent.toNat) else (num * 10 ^ (-exponent).toNat, den)

/-- Ten of something is one of the next larger. -/
def carry (digits : Nat) (exponent : Int) : Nat × Int :=
  if digits % 10 = 0 then (digits / 10, exponent + 1) else (digits, exponent)

/-- The decimals of a number of digits next to a quotient, the nearer one first. -/
def around (num den count : Nat) : List (Nat × Int) :=
  let exponent := point num den - count
  let (num, den) := scaled num den exponent
  let near := nearest num den
  let far := if near = num / den then near + 1 else near - 1
  [carry near exponent, carry far exponent]

def fives : Nat := 5 ^ places

/-- The decimal that is exactly the number. -/
def exact (x : Binary64) : Nat × Int := (x.mantissa * 2 ^ x.shift * fives, -(places : Int))

/-- The decimal is read as the number, without its sign. -/
def reads (x : Binary64) (decimal : Nat × Int) : Bool :=
  ofDecimal false decimal.1 decimal.2 = some x.magnitude

/-- The first of the decimals of at most seventeen digits that is read as the number. There always
is one. -/
def nearby (x : Binary64) : Option (Nat × Int) :=
  (List.range 17).findSome? fun i => (around (x.mantissa * 2 ^ x.shift) one (i + 1)).find? (reads x)

/-- The decimal of fewest digits that is read as the number, the nearest one of them. -/
def shortest (x : Binary64) : Nat × Int := if x.isZero then (0, 0) else x.nearby.getD x.exact

section
variable {x : Binary64} {negative : Bool} {num den digits : Nat} {exponent : Int}

theorem ofRatio_exact (x : Binary64) (positive : 0 < den) :
    ofRatio x.negative (x.mantissa * 2 ^ x.shift * den) den = some x := by
  have rounded := round_exact positive x.fits x.normal
  have bounded : (round (x.mantissa * 2 ^ x.shift * den) den).2 ≤ 2045 := by
    rw [rounded]
    exact x.bounded
  rw [ofRatio, dif_pos bounded]
  cases x
  simp only [rounded]

theorem ofDecimal_exact (x : Binary64) : ofDecimal x.negative x.exact.1 x.exact.2 = some x := by
  have below : ¬ 0 ≤ x.exact.2 := by
    have : (0 : Int) < places := by decide
    simp only [exact]
    omega
  have tens : x.exact.1 * one = x.mantissa * 2 ^ x.shift * 10 ^ places := by
    simp only [exact, fives, one]
    rw [Nat.mul_assoc, ← Nat.mul_pow]
  rw [ofDecimal, if_neg below, tens]
  simp only [exact, Int.neg_neg, Int.toNat_natCast]
  exact ofRatio_exact x (Nat.pow_pos (by decide))

theorem ofRatio_zero (read : ofRatio negative 0 den = some x) : x.mantissa = 0 := by
  have none : (round 0 den).1 = 0 := by simp [round, excess, nearest]
  unfold ofRatio at read
  split at read
  · rw [← Option.some.inj read]
    exact none
  · contradiction

theorem ofDecimal_zero (read : ofDecimal negative 0 exponent = some x) : x.mantissa = 0 := by
  unfold ofDecimal at read
  split at read
  · rw [Nat.zero_mul, Nat.zero_mul] at read
    exact ofRatio_zero read
  · rw [Nat.zero_mul] at read
    exact ofRatio_zero read

theorem ofRatio_negative (read : ofRatio false num den = some x.magnitude) :
    ofRatio x.negative num den = some x := by
  unfold ofRatio at read ⊢
  split at read
  · rename_i bounded
    rw [dif_pos bounded]
    have same := Option.some.inj read
    cases x
    simp only [magnitude, mk.injEq] at same
    simp only [same]
  · contradiction

theorem ofDecimal_negative (read : ofDecimal false digits exponent = some x.magnitude) :
    ofDecimal x.negative digits exponent = some x := by
  unfold ofDecimal at read ⊢
  split at read
  · rename_i above
    rw [if_pos above]
    exact ofRatio_negative read
  · rename_i below
    rw [if_neg below]
    exact ofRatio_negative read

/-- The shortest decimal is read as the number it was made of. -/
theorem ofDecimal_shortest (x : Binary64) :
    ofDecimal x.negative x.shortest.1 x.shortest.2 = some x := by
  unfold shortest
  split_ifs with zero
  · have none : x.mantissa = 0 := of_decide_eq_true zero
    have unshifted : x.shift = 0 := by
      by_contra shifted
      have := x.normal shifted
      omega
    have exactly := ofRatio_exact x Nat.one_pos
    simpa [ofDecimal, none] using exactly
  · cases found : x.nearby with
    | none => exact ofDecimal_exact x
    | some decimal =>
        obtain ⟨i, -, first⟩ := List.exists_of_findSome?_eq_some found
        have read : x.reads decimal = true := List.find?_some first
        simp only [reads, decide_eq_true_eq] at read
        simpa only [Option.getD_some] using ofDecimal_negative read

/-- Only zero has no digits. -/
theorem shortest_zero (none : x.shortest.1 = 0) : x.shortest = (0, 0) := by
  have read := ofDecimal_shortest x
  rw [none] at read
  have zero : x.isZero = true := decide_eq_true (ofDecimal_zero read)
  rw [shortest, if_pos zero]

end

end Binary64
