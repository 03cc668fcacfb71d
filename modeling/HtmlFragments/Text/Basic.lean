/-! # Text as UTF-16 code units

Positions, lengths, columns and cuts all count code units, so a character outside the basic plane
counts as two of them and a cut may separate the two. A text is therefore a list of units, well
formed or not, and a unit is written by its number: `0x3C` is `<` and `0x26` is `&`. Documents and
queries share the classes of units that are told apart: outside ASCII every unit, a lone surrogate
included, may stand in a name. -/
set_option autoImplicit false

namespace HtmlFragments

abbrev CodeUnit := UInt16

abbrev Text := List CodeUnit

namespace CodeUnit

def isHighSurrogate (unit : CodeUnit) : Bool := 0xD800 ≤ unit && unit ≤ 0xDBFF

def isLowSurrogate (unit : CodeUnit) : Bool := 0xDC00 ≤ unit && unit ≤ 0xDFFF

end CodeUnit

namespace Text

/-- The units of a code point: itself in the basic plane, a surrogate pair beyond it. -/
def encode (point : Nat) : Text :=
  if point < 0x10000 then [UInt16.ofNat point]
  else
    [UInt16.ofNat (0xD800 + (point - 0x10000) / 0x400),
      UInt16.ofNat (0xDC00 + (point - 0x10000) % 0x400)]

def ofString (characters : String) : Text :=
  characters.toList.flatMap fun character => encode character.toNat

/-- The code points of a text. A surrogate outside a pair stands for itself. -/
def codePoints : Text → List Nat
  | [] => []
  | [unit] => [unit.toNat]
  | unit :: next :: rest =>
    if CodeUnit.isHighSurrogate unit && CodeUnit.isLowSurrogate next then
      (0x10000 + (unit.toNat - 0xD800) * 0x400 + (next.toNat - 0xDC00)) :: codePoints rest
    else unit.toNat :: codePoints (next :: rest)

/-- A text is well formed when every surrogate in it belongs to a pair, high before low. -/
def isWellFormed : Text → Bool
  | [] => true
  | [unit] => !CodeUnit.isHighSurrogate unit && !CodeUnit.isLowSurrogate unit
  | unit :: next :: rest =>
    if CodeUnit.isHighSurrogate unit then CodeUnit.isLowSurrogate next && isWellFormed rest
    else !CodeUnit.isLowSurrogate unit && isWellFormed (next :: rest)

def toString (text : Text) : String :=
  String.ofList (text.codePoints.map fun point =>
    if 0xD800 ≤ point && point ≤ 0xDFFF then Char.ofNat 0xFFFD else Char.ofNat point)

def ofNat (number : Nat) : Text := ofString (Nat.repr number)

def indexOf? (wanted text : Text) : Option Nat :=
  if wanted.isPrefixOf text then some 0
  else
    match text with
    | [] => none
    | _ :: rest => (indexOf? wanted rest).map (· + 1)

def precedes (text other : Text) : Bool :=
  List.lex text other fun unit otherUnit => unit < otherUnit

def join (separator : Text) : List Text → Text
  | [] => []
  | [part] => part
  | part :: others => part ++ separator ++ join separator others

end Text

/-! ## Classes of code units

Whitespace, letters and digits are ASCII only. -/

namespace CodeUnit

def isWhitespace (unit : CodeUnit) : Bool :=
  unit == 0x20 || unit == 0x09 || unit == 0x0A || unit == 0x0C || unit == 0x0D

def isLetter (unit : CodeUnit) : Bool :=
  (0x41 ≤ unit && unit ≤ 0x5A) || (0x61 ≤ unit && unit ≤ 0x7A)

def isDigit (unit : CodeUnit) : Bool := 0x30 ≤ unit && unit ≤ 0x39

def isHexDigit (unit : CodeUnit) : Bool :=
  isDigit unit || (0x41 ≤ unit && unit ≤ 0x46) || (0x61 ≤ unit && unit ≤ 0x66)

def startsTagName (unit : CodeUnit) : Bool := isLetter unit

/-- A query identifier holds letters, digits, `-`, `_` and everything outside ASCII. -/
def isIdentifierUnit (unit : CodeUnit) : Bool :=
  isLetter unit || isDigit unit || unit == 0x2D || unit == 0x5F || 0x80 ≤ unit

def isNameUnit (unit : CodeUnit) : Bool :=
  isIdentifierUnit unit || unit == 0x3A || unit == 0x2E

/-- An attribute name runs up to whitespace, `/`, `>`, `=`, `<` or a quote. -/
def isAttributeNameUnit (unit : CodeUnit) : Bool :=
  !(isWhitespace unit || unit == 0x2F || unit == 0x3E || unit == 0x3D || unit == 0x22 ||
    unit == 0x27 || unit == 0x3C)

end CodeUnit

/-! ## Numbers in digits

The number that a row of digits writes, in any base up to sixteen and at any length. -/

def CodeUnit.digitValue (unit : CodeUnit) : Nat :=
  if unit ≤ 0x39 then unit.toNat - 0x30
  else if unit ≤ 0x46 then unit.toNat - 0x37
  else unit.toNat - 0x57

def Text.numberOfDigits (base : Nat) (digits : Text) : Nat :=
  digits.foldl (fun number digit => number * base + CodeUnit.digitValue digit) 0

/-! ## Quoted text

The quoted form of a text is a JSON string that shows every unit: control units and surrogates
outside a pair are written as escapes, all else stands for itself. -/

namespace Text

def hexDigit (value : Nat) : CodeUnit :=
  UInt16.ofNat (if value < 10 then 0x30 + value else 0x57 + value)

def unicodeEscape (unit : CodeUnit) : Text :=
  [0x5C, 0x75, hexDigit (unit.toNat / 0x1000), hexDigit (unit.toNat / 0x100 % 0x10),
    hexDigit (unit.toNat / 0x10 % 0x10), hexDigit (unit.toNat % 0x10)]

def escapeUnit (unit : CodeUnit) : Text :=
  if unit == 0x22 then ofString "\\\""
  else if unit == 0x5C then ofString "\\\\"
  else if unit == 0x08 then ofString "\\b"
  else if unit == 0x09 then ofString "\\t"
  else if unit == 0x0A then ofString "\\n"
  else if unit == 0x0C then ofString "\\f"
  else if unit == 0x0D then ofString "\\r"
  else if unit < 0x20 || CodeUnit.isHighSurrogate unit || CodeUnit.isLowSurrogate unit then
    unicodeEscape unit
  else [unit]

def escape : Text → Text
  | [] => []
  | [unit] => escapeUnit unit
  | unit :: next :: rest =>
    if CodeUnit.isHighSurrogate unit && CodeUnit.isLowSurrogate next then
      unit :: next :: escape rest
    else escapeUnit unit ++ escape (next :: rest)

def quoted (text : Text) : Text := [0x22] ++ escape text ++ [0x22]

end Text

/-! ## Tables of names

A table gives values to names of its choice. Besides its own entries every table knows the same
twelve members, so a look-up finds an entry, a member or nothing. -/

theorem mem_of_lookup {Name Value : Type} [BEq Name] [LawfulBEq Name]
    {table : List (Name × Value)} {name : Name} {value : Value}
    (found : table.lookup name = some value) : (name, value) ∈ table := by
  obtain ⟨before, after, rfl, _⟩ := List.lookup_eq_some_iff.mp found
  exact List.mem_append_right _ List.mem_cons_self

abbrev NameTable (Value : Type) := List (Text × Value)

namespace NameTable

def routineNames : List Text :=
  ["hasOwnProperty", "isPrototypeOf", "propertyIsEnumerable", "toLocaleString", "toString",
    "valueOf", "__defineGetter__", "__defineSetter__", "__lookupGetter__",
    "__lookupSetter__"].map Text.ofString

def routineText (name : Text) : Text :=
  Text.ofString "function " ++ name ++ Text.ofString "() \x7b [native code] \x7d"

/-- The members that every table has, each with the text of its value. -/
def members : List (Text × Text) :=
  (Text.ofString "constructor", routineText (Text.ofString "Object")) ::
    (Text.ofString "__proto__", Text.ofString "[object Object]") ::
    routineNames.map fun name => (name, routineText name)

inductive Binding (Value : Type) where
  | entry (value : Value)
  | member (text : Text)

def find? {Value : Type} (table : NameTable Value) (name : Text) : Option (Binding Value) :=
  match table.lookup name with
  | some value => some (.entry value)
  | none => (members.lookup name).map .member

end NameTable
end HtmlFragments
