import HtmlFragments.Document.Basic
import HtmlFragments.Markup.CharacterData
import HtmlFragments.Text.Cursor

/-! # Tags

A start tag is a name, attributes in any number and `>` or `/>`. An end tag has to name the
element it closes, in any case. Each reader ends strictly after the place it began. -/
set_option autoImplicit false

namespace HtmlFragments.Markup

/-! ## What may be missing

Every way in which a document can be malformed, as what was expected instead. -/

inductive Expectation where
  | textOrOpeningTag
  | endTag (tag : Text)
  | endTagOpening
  | attributeNameOrTagEnd (tag : Text)
  | attributeValue
  | closingQuote (quote : CodeUnit)
  | commentEnd
  | declarationEnd
deriving DecidableEq, Repr

def Expectation.text : Expectation → Text
  | .textOrOpeningTag => Text.ofString "text or an opening tag"
  | .endTag tag => Text.ofString "</" ++ tag ++ Text.ofString ">"
  | .endTagOpening => Text.ofString "\"</\""
  | .attributeNameOrTagEnd tag =>
    Text.ofString "an attribute name or \">\" to close <" ++ tag ++ Text.ofString ">"
  | .attributeValue => Text.ofString "an attribute value"
  | .closingQuote quote =>
    Text.ofString "closing " ++ [quote] ++ Text.ofString " of the attribute value"
  | .commentEnd => Text.ofString "\"-->\" to close the comment"
  | .declarationEnd => Text.ofString "\">\" to close the declaration"

abbrev Reading := Except (Failure Expectation)

/-! ## Readers -/

def readTagName (cursor : Cursor) : Option (Text × Cursor) :=
  match cursor.rest with
  | unit :: _ =>
    if CodeUnit.startsTagName unit then some (cursor.span CodeUnit.isNameUnit) else none
  | [] => none

def readQuotedValue (quote : CodeUnit) (cursor : Cursor) : Reading (Text × Cursor) :=
  let inside := cursor.advance 1
  let data := CharacterData.read (CharacterData.endsQuoted quote) inside.rest
  match (inside.advance data.2).rest with
  | [] => .error ⟨.closingQuote quote, cursor.position⟩
  | _ :: _ => .ok (data.1, (inside.advance data.2).advance 1)

def readBareValue (cursor : Cursor) : Reading (Text × Cursor) :=
  if cursor.rest.isEmpty || CharacterData.endsBare cursor.rest then
    .error ⟨.attributeValue, cursor.position⟩
  else
    let data := CharacterData.read CharacterData.endsBare cursor.rest
    .ok (data.1, cursor.advance data.2)

def readValue (cursor : Cursor) : Reading (Text × Cursor) :=
  match cursor.rest with
  | 0x22 :: _ => readQuotedValue 0x22 cursor
  | 0x27 :: _ => readQuotedValue 0x27 cursor
  | _ => readBareValue cursor

/-- A name, then a value if a `=` follows. Whitespace may stand on both sides of the `=`. -/
def readAttribute (cursor : Cursor) : Reading (Attribute × Cursor) :=
  let name := cursor.span CodeUnit.isAttributeNameUnit
  let afterName := name.2.skipWhitespace
  match afterName.rest with
  | 0x3D :: _ => do
    let (value, after) ← readValue (afterName.advance 1).skipWhitespace
    return (⟨name.1, value⟩, after)
  | _ => .ok (⟨name.1, []⟩, afterName)

theorem readQuotedValue_remaining_le {quote : CodeUnit} {cursor after : Cursor} {value : Text}
    (success : readQuotedValue quote cursor = .ok (value, after)) :
    after.remaining ≤ cursor.remaining := by
  simp only [readQuotedValue] at success
  split at success
  · cases success
  · cases success
    exact Nat.le_trans (Cursor.advance_remaining_le _ _)
      (Nat.le_trans (Cursor.advance_remaining_le _ _) (Cursor.advance_remaining_le _ _))

theorem readBareValue_remaining_le {cursor after : Cursor} {value : Text}
    (success : readBareValue cursor = .ok (value, after)) :
    after.remaining ≤ cursor.remaining := by
  simp only [readBareValue] at success
  split at success
  · cases success
  · cases success
    exact cursor.advance_remaining_le _

theorem readValue_remaining_le {cursor after : Cursor} {value : Text}
    (success : readValue cursor = .ok (value, after)) : after.remaining ≤ cursor.remaining := by
  unfold readValue at success
  split at success
  · exact readQuotedValue_remaining_le success
  · exact readQuotedValue_remaining_le success
  · exact readBareValue_remaining_le success

theorem readAttribute_remaining_le {cursor after : Cursor} {entry : Attribute}
    (success : readAttribute cursor = .ok (entry, after)) :
    after.remaining ≤ (cursor.span CodeUnit.isAttributeNameUnit).2.remaining := by
  have toEquals := (cursor.span CodeUnit.isAttributeNameUnit).2.skipWhitespace_remaining_le
  simp only [readAttribute] at success
  split at success
  · obtain ⟨⟨value, finish⟩, valued, rest⟩ := ok_of_bind_ok success
    cases rest
    exact Nat.le_trans (readValue_remaining_le valued)
      (Nat.le_trans (Cursor.skipWhitespace_remaining_le _)
        (Nat.le_trans (Cursor.advance_remaining_le _ _) toEquals))
  · cases success
    exact toEquals

theorem readAttribute_remaining_lt {cursor after : Cursor} {entry : Attribute}
    {unit : CodeUnit} {rest : Text} (shows : cursor.rest = unit :: rest)
    (first : CodeUnit.isAttributeNameUnit unit = true)
    (success : readAttribute cursor = .ok (entry, after)) :
    after.remaining < cursor.remaining :=
  Nat.lt_of_le_of_lt (readAttribute_remaining_le success)
    (cursor.span_remaining_lt _ unit rest shows first)

inductive TagEnd where
  | plain
  | selfClosing
deriving DecidableEq, Repr

def readAttributes (tag : Text) (cursor : Cursor) :
    Reading ((List Attribute × TagEnd) × Cursor) :=
  match _shows : cursor.skipWhitespace.rest with
  | 0x2F :: 0x3E :: _ => .ok (([], .selfClosing), cursor.skipWhitespace.advance 2)
  | 0x3E :: _ => .ok (([], .plain), cursor.skipWhitespace.advance 1)
  | unit :: _ =>
    if _first : CodeUnit.isAttributeNameUnit unit = true then
      match _success : readAttribute cursor.skipWhitespace with
      | .error failure => .error failure
      | .ok (entry, after) => do
        let ((others, tagEnd), finish) ← readAttributes tag after
        return ((entry :: others, tagEnd), finish)
    else .error ⟨.attributeNameOrTagEnd tag, cursor.skipWhitespace.position⟩
  | [] => .error ⟨.attributeNameOrTagEnd tag, cursor.skipWhitespace.position⟩
termination_by cursor.remaining
decreasing_by
  exact Nat.lt_of_lt_of_le (readAttribute_remaining_lt _shows _first _success)
    cursor.skipWhitespace_remaining_le

theorem readAttributes_remaining_le {tag : Text} {cursor after : Cursor}
    {found : List Attribute × TagEnd}
    (success : readAttributes tag cursor = .ok (found, after)) :
    after.remaining ≤ cursor.remaining := by
  fun_induction readAttributes tag cursor generalizing found with
  | case1 =>
    cases success
    exact Nat.le_trans (Cursor.advance_remaining_le _ _) (Cursor.skipWhitespace_remaining_le _)
  | case2 =>
    cases success
    exact Nat.le_trans (Cursor.advance_remaining_le _ _) (Cursor.skipWhitespace_remaining_le _)
  | case3 => cases success
  | case4 cursor unit rest _ _ shows first entry next read shorter =>
    obtain ⟨⟨⟨others, tagEnd⟩, finish⟩, more, rest⟩ := ok_of_bind_ok success
    cases rest
    exact Nat.le_trans (shorter more)
      (Nat.le_of_lt (Nat.lt_of_lt_of_le (readAttribute_remaining_lt shows first read)
        cursor.skipWhitespace_remaining_le))
  | case5 => cases success
  | case6 => cases success

structure StartTag where
  tag : Text
  attributes : List Attribute
  tagEnd : TagEnd
deriving DecidableEq, Repr

def readStartTag (cursor : Cursor) : Reading (StartTag × Cursor) := do
  let name := (cursor.advance 1).span CodeUnit.isNameUnit
  let ((attributes, tagEnd), after) ← readAttributes name.1 name.2
  return (⟨name.1, attributes, tagEnd⟩, after)

theorem readStartTag_remaining_lt {cursor after : Cursor} {startTag : StartTag}
    (nonempty : 0 < cursor.remaining) (success : readStartTag cursor = .ok (startTag, after)) :
    after.remaining < cursor.remaining := by
  obtain ⟨⟨⟨attributes, tagEnd⟩, finish⟩, read, rest⟩ := ok_of_bind_ok success
  cases rest
  exact Nat.lt_of_le_of_lt (readAttributes_remaining_le read)
    (Nat.lt_of_le_of_lt (Cursor.span_remaining_le _ _)
      (cursor.advance_remaining_lt 1 nonempty Nat.one_pos))

/-- Reads the end tag of an open element and returns the place after it. A wrong end tag is
reported where it starts. -/
def readEndTag (tag : Text) (cursor : Cursor) : Reading Cursor :=
  match cursor.rest with
  | 0x3C :: 0x2F :: _ =>
    match readTagName (cursor.advance 2) with
    | some (name, afterName) =>
      match afterName.skipWhitespace.rest with
      | 0x3E :: _ =>
        if Text.sameUpToCase name tag then .ok (afterName.skipWhitespace.advance 1)
        else .error ⟨.endTag tag, cursor.position⟩
      | _ => .error ⟨.endTag tag, cursor.position⟩
    | none => .error ⟨.endTag tag, cursor.position⟩
  | _ => .error ⟨.endTagOpening, cursor.position⟩

theorem readTagName_remaining_le {cursor after : Cursor} {name : Text}
    (success : readTagName cursor = some (name, after)) : after.remaining ≤ cursor.remaining := by
  unfold readTagName at success
  split at success
  · split at success
    · cases success
      exact cursor.span_remaining_le _
    · cases success
  · cases success

theorem readEndTag_remaining_lt {tag : Text} {cursor after : Cursor}
    (success : readEndTag tag cursor = .ok after) : after.remaining < cursor.remaining := by
  unfold readEndTag at success
  split at success
  · rename_i opening
    split at success
    · rename_i found
      split at success
      · split at success
        · cases success
          have nonempty : 0 < cursor.remaining := by simp [Cursor.remaining, opening]
          exact Nat.lt_of_le_of_lt
            (Nat.le_trans (Cursor.advance_remaining_le _ _)
              (Nat.le_trans (Cursor.skipWhitespace_remaining_le _)
                (readTagName_remaining_le found)))
            (cursor.advance_remaining_lt 2 nonempty Nat.two_pos)
        · cases success
      · cases success
    · cases success
  · cases success

end HtmlFragments.Markup
