import HtmlFragments.Numeric.Binary64
import HtmlFragments.Text.Basic

/-! # Values in log lines

Details of a log line are JSON values. They are shown on one line without spaces, and inside a
message as plain text. -/
set_option autoImplicit false

namespace HtmlFragments

inductive Json where
  | null
  | boolean (value : Bool)
  | number (negative : Bool) (magnitude : Binary64)
  | text (value : Text)
  | array (items : List Json)
  | object (fields : List (Text × Json))

namespace Json

def ofNat (number : Nat) : Json := .number false (Binary64.ofNat number)

/-- The fields that a value has. The items of an array are named by their indices. -/
def fields : Json → List (Text × Json)
  | .object fields => fields
  | .array items => items.zipIdx.map fun item => (Text.ofNat item.2, item.1)
  | _ => []

def isBlank : Json → Bool
  | .null => true
  | .boolean value => !value
  | .number _ magnitude => magnitude.isZero
  | .text value => value.isEmpty
  | .array _ => false
  | .object _ => false

def numberText (negative : Bool) (magnitude : Binary64) : Text :=
  (if negative && !magnitude.isZero then [0x2D] else []) ++ magnitude.text

/-! ## Order of fields -/

def greatestIndex : Nat := 4294967294

def index? (name : Text) : Option Nat :=
  if name.all CodeUnit.isDigit then
    let value := Text.numberOfDigits 10 name
    if Text.ofNat value = name ∧ value ≤ greatestIndex then some value else none
  else none

/-- Fields named by an index come first, in ascending order, and the others keep their order. -/
def inOrder {Value : Type} (fields : List (Text × Value)) : List (Text × Value) :=
  let indexed := fields.filterMap fun field => (index? field.1).map fun index => (index, field)
  (indexed.mergeSort fun left right => left.1 ≤ right.1).map Prod.snd ++
    fields.filter fun field => (index? field.1).isNone

/-! ## Forms -/

mutual

def compact : Json → Text
  | .null => Text.ofString "null"
  | .boolean true => Text.ofString "true"
  | .boolean false => Text.ofString "false"
  | .number negative magnitude =>
    if magnitude == .infinite then Text.ofString "null" else numberText negative magnitude
  | .text value => value.quoted
  | .array items => Text.ofString "[" ++ Text.join [0x2C] (compactItems items) ++ Text.ofString "]"
  | .object fields =>
    [0x7B] ++ Text.join [0x2C] ((inOrder (compactFields fields)).map Prod.snd) ++ [0x7D]

def compactItems : List Json → List Text
  | [] => []
  | item :: rest => compact item :: compactItems rest

def compactFields : List (Text × Json) → List (Text × Text)
  | [] => []
  | (name, value) :: rest => (name, name.quoted ++ [0x3A] ++ compact value) :: compactFields rest

end

mutual

/-- The form inside a message: an array is its items between commas, and an object hides its
fields. -/
def plain : Json → Text
  | .null => Text.ofString "null"
  | .boolean true => Text.ofString "true"
  | .boolean false => Text.ofString "false"
  | .number negative magnitude => numberText negative magnitude
  | .text value => value
  | .array items => Text.join [0x2C] (plainItems items)
  | .object _ => Text.ofString "[object Object]"

def plainItems : List Json → List Text
  | [] => []
  | .null :: rest => [] :: plainItems rest
  | item :: rest => plain item :: plainItems rest

end

end Json
end HtmlFragments
