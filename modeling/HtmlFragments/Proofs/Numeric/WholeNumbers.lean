import HtmlFragments.Numeric.Binary64
import Mathlib.Algebra.Group.Nat.Defs
import Mathlib.Data.List.Induction
import Mathlib.Data.Nat.Digits.Defs

/-! # Whole numbers and their digits

Digits are taken in from the front, and the number comes out the same as if their places were
counted from the end. Below `2 ^ 53` every whole number is a binary64 value of its own. A greater
one may be rounded, even to infinity, but never to a value below `2 ^ 53`. -/
set_option autoImplicit false

namespace HtmlFragments.Text

theorem numberOfDigits_append (base : Nat) (digits : Text) (digit : CodeUnit) :
    numberOfDigits base (digits ++ [digit]) =
      numberOfDigits base digits * base + CodeUnit.digitValue digit := by
  rw [numberOfDigits, numberOfDigits, List.foldl_append]
  rfl

theorem numberOfDigits_eq_ofDigits (base : Nat) (digits : Text) :
    numberOfDigits base digits = Nat.ofDigits base (digits.reverse.map CodeUnit.digitValue) := by
  induction digits using List.reverseRecOn with
  | nil => rfl
  | append_singleton digits digit ih =>
    rw [numberOfDigits_append, ih, List.reverse_append, List.map_append, List.reverse_singleton,
      List.map_singleton, List.singleton_append, Nat.ofDigits_cons, Nat.mul_comm, Nat.add_comm]

end HtmlFragments.Text

/-! ## Rounding -/

namespace HtmlFragments.Binary64

theorem le_roundToEven (numerator denominator : Nat) :
    numerator / denominator ≤ roundToEven numerator denominator := by
  simp only [roundToEven]
  split
  · exact Nat.le_refl _
  · exact Nat.le_succ _

theorem roundToEven_one (numerator : Nat) : roundToEven numerator 1 = numerator := by
  simp [roundToEven, Nat.mod_one]

theorem scale_of_nonpos (numerator : Nat) {exponent : Int} (nonpos : exponent ≤ 0) :
    scale numerator 1 exponent = (numerator * 2 ^ (-exponent).toNat, 1) := by
  have none : exponent.toNat = 0 := by omega
  simp [scale, none]

theorem scale_of_nonneg (numerator : Nat) {exponent : Int} (nonneg : 0 ≤ exponent) :
    scale numerator 1 exponent = (numerator, 2 ^ exponent.toNat) := by
  have none : (-exponent).toNat = 0 := by omega
  simp [scale, none]

/-- The whole part of a scaled number has its highest bit at place 52. -/
theorem le_scale_log2 {number : Nat} (positive : number ≠ 0) :
    2 ^ 52 ≤ (scale number 1 (number.log2 - 52)).1 / (scale number 1 (number.log2 - 52)).2 := by
  have least := Nat.log2_self_le positive
  by_cases small : number.log2 ≤ 52
  · have places : (-((number.log2 : Int) - 52)).toNat = 52 - number.log2 := by omega
    rw [scale_of_nonpos number (by omega), places, Nat.div_one]
    calc 2 ^ 52 = 2 ^ number.log2 * 2 ^ (52 - number.log2) := by
          rw [← Nat.pow_add, Nat.add_sub_cancel' small]
      _ ≤ number * 2 ^ (52 - number.log2) := Nat.mul_le_mul_right _ least
  · have places : ((number.log2 : Int) - 52).toNat = number.log2 - 52 := by omega
    rw [scale_of_nonneg number (by omega), places, Nat.le_div_iff_mul_le (Nat.two_pow_pos _),
      ← Nat.pow_add, Nat.add_sub_cancel' (by omega)]
    exact least

theorem exponentOf_one {number : Nat} (positive : number ≠ 0) :
    exponentOf number 1 = number.log2 - 52 := by
  have whole := le_scale_log2 positive
  have one : (1 : Nat).log2 = 0 := by decide
  have estimate : (number.log2 : Int) - (1 : Nat).log2 - 52 = number.log2 - 52 := by
    rw [one]
    omega
  have filled : significandLimit ≤ 2 * ((scale number 1 (number.log2 - 52)).1 /
      (scale number 1 (number.log2 - 52)).2) := by
    have limit : significandLimit = 2 * 2 ^ 52 := rfl
    omega
  simp only [exponentOf, estimate, if_pos filled, leastExponent]
  omega

theorem floor?_ofNat {number : Nat} (small : number < 2 ^ 53) :
    (ofNat number).floor? = some number := by
  by_cases zero : number = 0
  · subst zero
    decide +kernel
  have places : number.log2 < 53 := (Nat.log2_lt zero).mpr small
  have negated : (-((number.log2 : Int) - 52)).toNat = 52 - number.log2 := by omega
  have none : ((number.log2 : Int) - 52).toNat = 0 := by omega
  have bound : number * 2 ^ (52 - number.log2) < significandLimit := by
    calc number * 2 ^ (52 - number.log2)
        < 2 ^ (number.log2 + 1) * 2 ^ (52 - number.log2) :=
          Nat.mul_lt_mul_of_pos_right Nat.lt_log2_self (Nat.two_pow_pos _)
      _ = 2 ^ 53 := by rw [← Nat.pow_add]; congr 1; omega
      _ = significandLimit := rfl
  have limits : significandLimit ≤ valueLimit := by decide +kernel
  have finite : ¬valueLimit ≤ number * 2 ^ (52 - number.log2) := by omega
  have value : ofNat number = .finite (number * 2 ^ (52 - number.log2)) (number.log2 - 52) := by
    rw [ofNat, ofRatio]
    have shrinks : (number.log2 : Int) - 52 ≤ 0 := by omega
    simp only [exponentOf_one zero, scale_of_nonpos number shrinks, roundToEven_one, negated,
      none, Nat.pow_eq, Nat.pow_zero, Nat.mul_one, if_neg finite, if_neg (Nat.ne_of_lt bound)]
  rw [value, floor?, ratio?]
  simp only [Option.map_some, negated, none, Nat.pow_eq, Nat.pow_zero, Nat.mul_one,
    Nat.mul_div_cancel _ (Nat.two_pow_pos _)]

/-- Rounding does not take a number below `2 ^ 53`. -/
theorem le_floor?_ofNat {number whole : Nat} (large : 2 ^ 53 ≤ number)
    (floor : (ofNat number).floor? = some whole) : 2 ^ 53 ≤ whole := by
  have positive : number ≠ 0 := by omega
  have places : 53 ≤ number.log2 := (Nat.le_log2 positive).mpr large
  have nonneg : 0 ≤ (number.log2 : Int) - 52 := by omega
  have shift : ((number.log2 : Int) - 52).toNat = number.log2 - 52 := by omega
  have further : ((number.log2 : Int) - 52 + 1).toNat = number.log2 - 51 := by omega
  have negated : (-((number.log2 : Int) - 52)).toNat = 0 := by omega
  have negatedFurther : (-((number.log2 : Int) - 52 + 1)).toNat = 0 := by omega
  have filled := le_scale_log2 positive
  simp only [ofNat, ofRatio, exponentOf_one positive] at floor
  generalize scaled : scale number 1 (number.log2 - 52) = parts at floor filled
  have significand : 2 ^ 52 ≤ roundToEven parts.1 parts.2 :=
    Nat.le_trans filled (le_roundToEven _ _)
  split at floor
  · cases floor
  split at floor
  case isTrue full =>
    simp only [floor?, ratio?, further, negatedFurther, Option.map_some, Nat.pow_eq, Nat.pow_zero,
      Nat.div_one, Option.some.injEq] at floor
    rw [← floor, full]
    have doubled : 2 ^ 1 ≤ 2 ^ (number.log2 - 51) := Nat.pow_le_pow_right (by decide) (by omega)
    calc 2 ^ 53 = significandLimit / 2 * 2 ^ 1 := rfl
      _ ≤ significandLimit / 2 * 2 ^ (number.log2 - 51) := Nat.mul_le_mul_left _ doubled
  case isFalse =>
    simp only [floor?, ratio?, shift, negated, Option.map_some, Nat.pow_eq, Nat.pow_zero,
      Nat.div_one, Option.some.injEq] at floor
    rw [← floor]
    have doubled : 2 ^ 1 ≤ 2 ^ (number.log2 - 52) := Nat.pow_le_pow_right (by decide) (by omega)
    exact Nat.mul_le_mul significand doubled

end HtmlFragments.Binary64
