import HtmlFragments.Document.Reading
import HtmlFragments.Proofs.Text.Span
import HtmlFragments.Proofs.Unicode.LowerCase

/-! # The grammar of markup

Which texts spell which forests, with every freedom that markup leaves: references or literal units,
quotes, whitespace inside tags, comments and declarations between nodes, self-closing tags and the
case of end tags. What a text may hold can depend on what follows it, so that most relations here
also take the text that comes next. -/
set_option autoImplicit false

namespace HtmlFragments.Markup.Grammar

def IsTagName : Text → Prop
  | [] => False
  | unit :: more => CodeUnit.startsTagName unit = true ∧ Text.AllOf CodeUnit.isNameUnit more

def IsAttributeName (name : Text) : Prop :=
  name ≠ [] ∧ Text.AllOf CodeUnit.isAttributeNameUnit name

/-- The end tag of a raw text element, in any case and not yet complete, stands in its text. -/
def HoldsEndTag (tag value : Text) : Prop :=
  ∃ name, name.map CodeUnit.asciiLower = tag.map CodeUnit.asciiLower ∧
    0x3C :: 0x2F :: name <:+: value

def IsPoint (number : Nat) : Prop :=
  number ≠ 0 ∧ number ≤ 0x10FFFF ∧ ¬(0xD800 ≤ number ∧ number ≤ 0xDFFF)

instance (number : Nat) : Decidable (IsPoint number) := inferInstanceAs (Decidable (_ ∧ _ ∧ _))

def standsFor (number : Nat) : Text := if IsPoint number then Text.encode number else [0xFFFD]

/-- The end of a row of digits before a text: a semicolon, or nothing where the text begins neither
with a digit nor with a semicolon. -/
inductive DigitsEnd (isDigit : CodeUnit → Bool) (rest : Text) : Text → Prop where
  | semicolon : DigitsEnd isDigit rest [0x3B]
  | nothing : Text.Stops isDigit rest → rest.head? ≠ some 0x3B → DigitsEnd isDigit rest []

/-- What a reference stands for and its text after the `&` and before the rest, given the names
that stand for something. -/
inductive ReferenceBefore (table : List (Text × Text)) (rest : Text) : Text → Text → Prop where
  | named {name stands : Text} :
      (name, stands) ∈ table → ReferenceBefore table rest stands (name ++ [0x3B])
  | decimal {digits ending : Text} :
      digits ≠ [] → Text.AllOf CodeUnit.isDigit digits → DigitsEnd CodeUnit.isDigit rest ending →
      ReferenceBefore table rest (standsFor (Text.numberOfDigits 10 digits))
        (0x23 :: (digits ++ ending))
  | hexadecimal {mark : CodeUnit} {digits ending : Text} :
      mark = 0x78 ∨ mark = 0x58 → digits ≠ [] → Text.AllOf CodeUnit.isHexDigit digits →
      DigitsEnd CodeUnit.isHexDigit rest ending →
      ReferenceBefore table rest (standsFor (Text.numberOfDigits 16 digits))
        (0x23 :: mark :: (digits ++ ending))

inductive ReferenceText : Text → Text → Prop where
  | named {name stands : Text} :
      (name, stands) ∈ Reference.names → ReferenceText stands (name ++ [0x3B])
  | decimal {digits : Text} :
      digits ≠ [] → Text.AllOf CodeUnit.isDigit digits → IsPoint (Text.numberOfDigits 10 digits) →
      ReferenceText (Text.encode (Text.numberOfDigits 10 digits)) (0x23 :: (digits ++ [0x3B]))
  | hexadecimal {mark : CodeUnit} {digits : Text} :
      mark = 0x78 ∨ mark = 0x58 → digits ≠ [] → Text.AllOf CodeUnit.isHexDigit digits →
      IsPoint (Text.numberOfDigits 16 digits) →
      ReferenceText (Text.encode (Text.numberOfDigits 16 digits))
        (0x23 :: mark :: (digits ++ [0x3B]))

inductive StartsReference : Text → Prop where
  | named {name stands rest : Text} :
      (name, stands) ∈ Reference.names → StartsReference (name ++ 0x3B :: rest)
  | decimal {digit : CodeUnit} {rest : Text} :
      CodeUnit.isDigit digit = true → StartsReference (0x23 :: digit :: rest)
  | hexadecimal {mark digit : CodeUnit} {rest : Text} :
      mark = 0x78 ∨ mark = 0x58 → CodeUnit.isHexDigit digit = true →
      StartsReference (0x23 :: mark :: digit :: rest)

/-- The text after a `&` names a member that every table of names has. -/
def StartsMember (text : Text) : Prop :=
  ∃ member ∈ NameTable.members, ∃ rest, text = member.1 ++ 0x3B :: rest

/-- A `&` before the text has to stand for itself by the rules. -/
def StartsNoReference (text : Text) : Prop := ¬StartsReference text

/-- A `&` before the text is read as itself. -/
def StartsNothing (text : Text) : Prop := ¬StartsReference text ∧ ¬StartsMember text

inductive Data (ampersand : Text → Prop) (ends : Text → Bool) (next : Text) :
    Text → Text → Prop where
  | nil : Data ampersand ends next [] []
  | literal {unit : CodeUnit} {value text : Text} :
      ends (unit :: (text ++ next)) = false → (unit = 0x26 → ampersand (text ++ next)) →
      Data ampersand ends next value text → Data ampersand ends next (unit :: value) (unit :: text)
  | reference {stands written value text : Text} :
      ReferenceText stands written → Data ampersand ends next value text →
      Data ampersand ends next (stands ++ value) (0x26 :: (written ++ text))

def isQuote (unit : CodeUnit) : Bool := unit == 0x22 || unit == 0x27

/-- The text of an attribute value, in quotes or, if there is one, without them. -/
inductive Value (ampersand : Text → Prop) (next : Text) : Text → Text → Prop where
  | quoted {quote : CodeUnit} {value text : Text} :
      isQuote quote = true →
      Data ampersand (CharacterData.endsQuoted quote) (quote :: next) value text →
      Value ampersand next value (quote :: (text ++ [quote]))
  | bare {value text : Text} :
      value ≠ [] → Text.Stops isQuote text → Data ampersand CharacterData.endsBare next value text →
      Value ampersand next value text

inductive Pair (ampersand : Text → Prop) (next : Text) : Attribute → Text → Prop where
  | bare {name : Text} : IsAttributeName name → Pair ampersand next ⟨name, []⟩ name
  | valued {name value before after written : Text} :
      IsAttributeName name → Text.Blank before → Text.Blank after →
      Value ampersand next value written →
      Pair ampersand next ⟨name, value⟩ (name ++ (before ++ 0x3D :: (after ++ written)))

inductive Pairs (ampersand : Text → Prop) (next : Text) : List Attribute → Text → Prop where
  | nil : Pairs ampersand next [] []
  | cons {spaces written text : Text} {pair : Attribute} {others : List Attribute} :
      spaces ≠ [] → Text.Blank spaces → Pair ampersand (text ++ next) pair written →
      Pairs ampersand next others text →
      Pairs ampersand next (pair :: others) (spaces ++ (written ++ text))

def tagEndText : TagEnd → Text
  | .plain => [0x3E]
  | .selfClosing => [0x2F, 0x3E]

inductive StartTagText (ampersand : Text → Prop) (next : Text) : StartTag → Text → Prop where
  | spaced {tag written spaces : Text} {pairs : List Attribute} {tagEnd : TagEnd} :
      IsTagName tag → Text.Blank spaces →
      Pairs ampersand (spaces ++ (tagEndText tagEnd ++ next)) pairs written →
      StartTagText ampersand next ⟨tag, pairs, tagEnd⟩
        (0x3C :: (tag ++ (written ++ (spaces ++ tagEndText tagEnd))))

inductive EndTagText (tag : Text) : Text → Prop where
  | spaced {name spaces : Text} :
      IsTagName name → Text.sameUpToCase name tag = true → Text.Blank spaces →
      EndTagText tag (0x3C :: 0x2F :: (name ++ (spaces ++ [0x3E])))

inductive Aside : Text → Prop where
  | comment {inner : Text} :
      ¬[0x2D, 0x2D, 0x3E] <:+: inner →
      Aside (0x3C :: 0x21 :: 0x2D :: 0x2D :: (inner ++ [0x2D, 0x2D, 0x3E]))
  | declaration {inner : Text} :
      0x3E ∉ inner → ¬[0x2D, 0x2D] <+: inner → Aside (0x3C :: 0x21 :: (inner ++ [0x3E]))

/-- The text of neighbouring nodes, given whether a text node ends right before it, the text before
it and the text after it. Two questions are left open: before which text a `&` may stand for itself,
and after which text a raw text element may have which value. -/
inductive Content (ampersand : Text → Prop) (found : Text → Text → Text → Prop) :
    Bool → Text → List Node → Text → Text → Prop where
  | nil {afterText : Bool} {before next : Text} :
      Content ampersand found afterText before [] [] next
  | aside {afterText : Bool} {before written text next : Text} {nodes : List Node} :
      Aside written → Content ampersand found false (before ++ written) nodes text next →
      Content ampersand found afterText before nodes (written ++ text) next
  | text {before value written text next : Text} {nodes : List Node} :
      value ≠ [] → Data ampersand endsText (text ++ next) value written →
      Content ampersand found true (before ++ written) nodes text next →
      Content ampersand found false before (.text value :: nodes) (written ++ text) next
  | empty {afterText : Bool} {before tag opening text next : Text} {pairs : List Attribute}
      {tagEnd : TagEnd} {nodes : List Node} :
      StartTagText ampersand (text ++ next) ⟨tag, pairs, tagEnd⟩ opening →
      tagEnd = .selfClosing ∨ isVoid tag = true →
      Content ampersand found false (before ++ opening) nodes text next →
      Content ampersand found afterText before (.element tag pairs [] :: nodes) (opening ++ text)
        next
  | rawText {afterText : Bool} {before tag opening value closing text next : Text}
      {pairs : List Attribute} {nodes : List Node} :
      StartTagText ampersand (value ++ (closing ++ (text ++ next))) ⟨tag, pairs, .plain⟩ opening →
      isVoid tag = false → isRawText tag = true → ¬HoldsEndTag tag value → EndTagText tag closing →
      found (before ++ opening) tag value →
      Content ampersand found false (before ++ opening ++ value ++ closing) nodes text next →
      Content ampersand found afterText before (.element tag pairs (textNodes value) :: nodes)
        (opening ++ (value ++ (closing ++ text))) next
  | element {afterText : Bool} {before tag opening inner closing text next : Text}
      {pairs : List Attribute} {children nodes : List Node} :
      StartTagText ampersand (inner ++ (closing ++ (text ++ next))) ⟨tag, pairs, .plain⟩ opening →
      isVoid tag = false → isRawText tag = false → EndTagText tag closing →
      Content ampersand found false (before ++ opening) children inner
        (closing ++ (text ++ next)) →
      Content ampersand found false (before ++ opening ++ inner ++ closing) nodes text next →
      Content ampersand found afterText before (.element tag pairs children :: nodes)
        (opening ++ (inner ++ (closing ++ text))) next

/-- A source may start with a byte order mark, and has to where its content starts with one. -/
inductive Spells (ampersand : Text → Prop) (found : Text → Text → Text → Prop) :
    List Node → Text → Prop where
  | marked {nodes : List Node} {text : Text} :
      Content ampersand found false [0xFEFF] nodes text [] →
      Spells ampersand found nodes (0xFEFF :: text)
  | unmarked {nodes : List Node} {text : Text} :
      text.head? ≠ some 0xFEFF → Content ampersand found false [] nodes text [] →
      Spells ampersand found nodes text

def Anywhere (_before _tag _value : Text) : Prop := True

end HtmlFragments.Markup.Grammar
