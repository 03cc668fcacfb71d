import HtmlFragments.Text.Basic

/-! # Binary64 magnitudes

Numbers are rounded once, from their exact ratio to the nearest binary64 value, a tie going to the
even significand. Signs are kept apart. A value is shown with the fewest digits that round back to
it, and among those with the digits nearest to it. -/
set_option autoImplicit false

namespace HtmlFragments

/-- A nonnegative binary64 value: `significand * 2 ^ exponent`, or infinity. -/
inductive Binary64 where
  | finite (significand : Nat) (exponent : Int)
  | infinite
deriving DecidableEq, Repr

namespace Binary64

def significandLimit : Nat := Nat.pow 2 53

def leastExponent : Int := -1074

def valueLimit : Nat := Nat.pow 2 1024

def roundToEven (numerator denominator : Nat) : Nat :=
  let quotient := numerator / denominator
  let twice := 2 * (numerator % denominator)
  if twice < denominator ∨ (twice = denominator ∧ quotient % 2 = 0) then quotient
  else quotient + 1

def scale (numerator denominator : Nat) (exponent : Int) : Nat × Nat :=
  (numerator * Nat.pow 2 (-exponent).toNat, denominator * Nat.pow 2 exponent.toNat)

/-- The exponent at which the whole part of a positive ratio has 53 bits, or the least exponent. -/
def exponentOf (numerator denominator : Nat) : Int :=
  let estimate : Int := (numerator.log2 : Int) - denominator.log2 - 52
  let scaled := scale numerator denominator estimate
  max leastExponent
    (if significandLimit ≤ 2 * (scaled.1 / scaled.2) then estimate else estimate - 1)

def ofRatio (numerator denominator : Nat) : Binary64 :=
  let exponent := exponentOf numerator denominator
  let scaled := scale numerator denominator exponent
  let significand := roundToEven scaled.1 scaled.2
  if valueLimit ≤ significand * Nat.pow 2 exponent.toNat then .infinite
  else if significand = significandLimit then .finite (significand / 2) (exponent + 1)
  else .finite significand exponent

def ofNat (number : Nat) : Binary64 := ofRatio number 1

def isZero : Binary64 → Bool
  | .infinite => false
  | .finite significand _ => significand == 0

def ratio? : Binary64 → Option (Nat × Nat)
  | .infinite => none
  | .finite significand exponent =>
    some (significand * Nat.pow 2 exponent.toNat, Nat.pow 2 (-exponent).toNat)

def floor? (value : Binary64) : Option Nat :=
  value.ratio?.map fun ratio => ratio.1 / ratio.2

end Binary64

/-! ## The shortest decimal

Seventeen digits are always enough. -/

structure Decimal where
  digits : Nat
  exponent : Int
deriving DecidableEq, Repr

namespace Decimal

def ratio (decimal : Decimal) : Nat × Nat :=
  (decimal.digits * Nat.pow 10 decimal.exponent.toNat, Nat.pow 10 (-decimal.exponent).toNat)

def nearest (decimal : Decimal) : Binary64 := Binary64.ofRatio decimal.ratio.1 decimal.ratio.2

def trimmed (digits : Nat) (exponent : Int) : Decimal :=
  if 0 < digits ∧ digits % 10 = 0 then trimmed (digits / 10) (exponent + 1)
  else ⟨digits, exponent⟩
termination_by digits
decreasing_by omega

def zeros (count : Nat) : Text := List.replicate count 0x30

/-- The digits with the point in its place: positional notation below 10 ^ 21 and from 10 ^ -6 on,
an exponent otherwise. -/
def text (decimal : Decimal) : Text :=
  let digits := Text.ofNat decimal.digits
  let point : Int := digits.length + decimal.exponent
  if decimal.digits = 0 then [0x30]
  else if 0 ≤ decimal.exponent ∧ point ≤ 21 then digits ++ zeros decimal.exponent.toNat
  else if 0 < point ∧ point ≤ 21 then
    digits.take point.toNat ++ [0x2E] ++ digits.drop point.toNat
  else if -6 < point ∧ point ≤ 0 then [0x30, 0x2E] ++ zeros (-point).toNat ++ digits
  else
    let fraction := digits.drop 1
    digits.take 1 ++ (if fraction.isEmpty then [] else 0x2E :: fraction) ++
      (if 0 < point then [0x65, 0x2B] else [0x65, 0x2D]) ++ Text.ofNat (point - 1).natAbs

end Decimal

namespace Binary64

def leadingPower (numerator denominator : Nat) : Int :=
  if denominator ≤ numerator then ((Nat.toDigits 10 (numerator / denominator)).length : Int) - 1
  else
    let inverse := (denominator + numerator - 1) / numerator
    Int.neg (Nat.toDigits 10 (inverse - 1)).length

/-- The one or two decimals of a given exponent that are next to a ratio, the nearer one first. -/
def neighbours (numerator denominator : Nat) (exponent : Int) : List Decimal :=
  let top := numerator * Nat.pow 10 (-exponent).toNat
  let bottom := denominator * Nat.pow 10 exponent.toNat
  let below := top / bottom
  let twice := 2 * (top % bottom)
  if twice < bottom ∨ (twice = bottom ∧ below % 2 = 0) then
    [⟨below, exponent⟩, ⟨below + 1, exponent⟩]
  else [⟨below + 1, exponent⟩, ⟨below, exponent⟩]

/-- Tries ever more digits, up to `more` further ones. -/
def shortestFrom (value : Binary64) (ratio : Nat × Nat) (exponent : Int) : Nat → Decimal
  | 0 => ⟨(neighbours ratio.1 ratio.2 exponent).head?.elim 0 Decimal.digits, exponent⟩
  | more + 1 =>
    match (neighbours ratio.1 ratio.2 exponent).find? (fun decimal => decimal.nearest == value) with
    | some decimal => .trimmed decimal.digits decimal.exponent
    | none => shortestFrom value ratio (exponent - 1) more

def shortest? (value : Binary64) : Option Decimal :=
  value.ratio?.map fun ratio =>
    if ratio.1 = 0 then ⟨0, 0⟩
    else shortestFrom value ratio (leadingPower ratio.1 ratio.2) 16

def text (value : Binary64) : Text :=
  match value.shortest? with
  | some decimal => decimal.text
  | none => Text.ofString "Infinity"

end Binary64
end HtmlFragments
