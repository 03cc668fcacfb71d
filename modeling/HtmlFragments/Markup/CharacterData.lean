import HtmlFragments.Numeric.Binary64

/-! # Character data

Text and attribute values are read alike: up to a place where the kind of data ends, with every
character reference replaced by its value. The kinds differ only in where they end. -/
set_option autoImplicit false

/-! ## Character references

A reference starts with `&`. What is no reference after all stands for itself, so reading never
fails. Reading takes the text after the `&` and returns the value and the number of units read. -/

namespace HtmlFragments.Reference

def names : NameTable Text :=
  [(Text.ofString "amp", [0x26]), (Text.ofString "lt", [0x3C]), (Text.ofString "gt", [0x3E]),
    (Text.ofString "quot", [0x22]), (Text.ofString "apos", [0x27]), (Text.ofString "nbsp", [0xA0])]

def named? (name : Text) : Option Text :=
  match names.find? name with
  | some (.entry value) => some value
  | some (.member text) => some text
  | none => none

def isReferenceNameUnit (unit : CodeUnit) : Bool := CodeUnit.isNameUnit unit && unit != 0x3A

/-- The text of a numeric reference: U+FFFD for zero, for a surrogate and past the last point, where
infinity lies too. -/
def pointText (number : Binary64) : Text :=
  match number.floor? with
  | some point =>
    if point = 0 ∨ 0x10FFFF < point ∨ (0xD800 ≤ point ∧ point ≤ 0xDFFF) then [0xFFFD]
    else Text.encode point
  | none => [0xFFFD]

def semicolonLength : Text → Nat
  | 0x3B :: _ => 1
  | _ => 0

/-- A digit run with an optional semicolon, its number rounded. With no digit only the opening is
taken, verbatim. -/
def readDigits (base : Nat) (isDigit : CodeUnit → Bool) (opening rest : Text) : Text × Nat :=
  let digits := rest.takeWhile isDigit
  if digits.isEmpty then (0x26 :: opening, opening.length)
  else
    (pointText (.ofNat (Text.numberOfDigits base digits)),
      opening.length + digits.length + semicolonLength (rest.dropWhile isDigit))

def readNumeric : Text → Text × Nat
  | 0x78 :: rest => readDigits 16 CodeUnit.isHexDigit [0x23, 0x78] rest
  | 0x58 :: rest => readDigits 16 CodeUnit.isHexDigit [0x23, 0x58] rest
  | rest => readDigits 10 CodeUnit.isDigit [0x23] rest

/-- A known name with its semicolon gives its value; any other name stays as written. -/
def readNamed (rest : Text) : Text × Nat :=
  let name := rest.takeWhile isReferenceNameUnit
  match named? name, rest.dropWhile isReferenceNameUnit with
  | some value, 0x3B :: _ => (value, name.length + 1)
  | _, _ => (0x26 :: name, name.length)

def read : Text → Text × Nat
  | 0x23 :: rest => readNumeric rest
  | rest => readNamed rest

end HtmlFragments.Reference

/-! ## Data up to its end -/

namespace HtmlFragments.CharacterData

/-- Reads up to the first place where `ends` holds of the remaining text. Returns the value and the
number of units read. -/
def read (ends : Text → Bool) : Text → Text × Nat
  | [] => ([], 0)
  | unit :: rest =>
    if ends (unit :: rest) then ([], 0)
    else if unit = 0x26 then
      let reference := Reference.read rest
      let more := read ends (rest.drop reference.2)
      (reference.1 ++ more.1, 1 + reference.2 + more.2)
    else
      let more := read ends rest
      (unit :: more.1, 1 + more.2)
termination_by text => text.length
decreasing_by
  · simp only [List.length_cons, List.length_drop]
    omega
  · exact Nat.lt_succ_self _

theorem read_count_pos (ends : Text → Bool) (unit : CodeUnit) (rest : Text)
    (continues : ends (unit :: rest) = false) : 0 < (read ends (unit :: rest)).2 := by
  rw [read, continues]
  simp only [Bool.false_eq_true, if_false]
  split
  · show 0 < 1 + _ + _
    omega
  · show 0 < 1 + _
    omega

def endsQuoted (quote : CodeUnit) : Text → Bool
  | unit :: _ => unit == quote
  | [] => false

def endsBare : Text → Bool
  | 0x3E :: _ => true
  | 0x2F :: 0x3E :: _ => true
  | unit :: _ => CodeUnit.isWhitespace unit
  | [] => false

end HtmlFragments.CharacterData
