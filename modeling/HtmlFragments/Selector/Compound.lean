import HtmlFragments.Selector.Basic
import HtmlFragments.Text.Cursor

/-! # Compound selectors

A compound selector is a tag or `*`, or neither, and a row of conditions, with no whitespace
between them; it may not be empty. -/
set_option autoImplicit false

namespace HtmlFragments.Query

/-! ## What may be missing

Every way in which the text of a query can be malformed, as what was expected instead. -/

inductive Expectation where
  | selector
  | idValue
  | classValue
  | attributeName
  | equalsSign
  | closingQuote (quote : CodeUnit)
  | attributeValue
  | closingBracket
  | separatorOrSelector
deriving DecidableEq, Repr

def Expectation.text : Expectation → Text
  | .selector => Text.ofString "a selector"
  | .idValue => Text.ofString "an id after \"#\""
  | .classValue => Text.ofString "a class name after \".\""
  | .attributeName => Text.ofString "an attribute name"
  | .equalsSign => Text.ofString "\"=\" in attribute selector"
  | .closingQuote quote => Text.ofString "closing " ++ [quote]
  | .attributeValue => Text.ofString "an attribute value"
  | .closingBracket => Text.ofString "\"]\""
  | .separatorOrSelector => Text.ofString "\",\", \">\" or a selector"

abbrev Reading := Except (Failure Expectation)

/-! ## Readers -/

def readIdentifier (expectation : Expectation) (cursor : Cursor) : Reading (Text × Cursor) :=
  let name := cursor.span CodeUnit.isIdentifierUnit
  if name.1.isEmpty then .error ⟨expectation, cursor.position⟩ else .ok name

/-- A quoted value runs to the next quote of its kind and has no escapes. -/
def readQuotedValue (quote : CodeUnit) (cursor : Cursor) : Reading (Text × Cursor) :=
  let value := (cursor.advance 1).span (· != quote)
  match value.2.rest with
  | [] => .error ⟨.closingQuote quote, cursor.position⟩
  | _ :: _ => .ok (value.1, value.2.advance 1)

def readValue (cursor : Cursor) : Reading (Text × Cursor) :=
  match cursor.rest with
  | 0x22 :: _ => readQuotedValue 0x22 cursor
  | 0x27 :: _ => readQuotedValue 0x27 cursor
  | _ => readIdentifier .attributeValue cursor

def readEquals (cursor : Cursor) : Reading Cursor :=
  match cursor.rest with
  | 0x3D :: _ => .ok (cursor.advance 1)
  | _ => .error ⟨.equalsSign, cursor.position⟩

def readClosingBracket (cursor : Cursor) : Reading Cursor :=
  match cursor.rest with
  | 0x5D :: _ => .ok (cursor.advance 1)
  | _ => .error ⟨.closingBracket, cursor.position⟩

def readAttributeTest (cursor : Cursor) : Reading (Attribute × Cursor) := do
  let (name, afterName) ← readIdentifier .attributeName cursor.skipWhitespace
  let afterEquals ← readEquals afterName.skipWhitespace
  let (value, afterValue) ← readValue afterEquals.skipWhitespace
  let after ← readClosingBracket afterValue.skipWhitespace
  return (⟨name, value⟩, after)

inductive Condition where
  | idIs (value : Text)
  | classIs (value : Text)
  | attributeIs (required : Attribute)
deriving DecidableEq, Repr

namespace Condition

def id? : Condition → Option Text
  | .idIs value => some value
  | _ => none

def class? : Condition → Option Text
  | .classIs value => some value
  | _ => none

def attribute? : Condition → Option Attribute
  | .attributeIs required => some required
  | _ => none

end Condition

/-- Ids, classes and attributes are collected apart, each in the order of the source. -/
def selectorOf (tag : Option Text) (conditions : List Condition) : Selector where
  tag := tag
  ids := conditions.filterMap Condition.id?
  classes := conditions.filterMap Condition.class?
  attributes := conditions.filterMap Condition.attribute?

def startsCondition (unit : CodeUnit) : Bool := unit == 0x23 || unit == 0x2E || unit == 0x5B

def readCondition (cursor : Cursor) : Reading (Condition × Cursor) :=
  match cursor.rest with
  | 0x23 :: _ => do
    let (value, after) ← readIdentifier .idValue (cursor.advance 1)
    return (.idIs value, after)
  | 0x2E :: _ => do
    let (value, after) ← readIdentifier .classValue (cursor.advance 1)
    return (.classIs value, after)
  | _ => do
    let (required, after) ← readAttributeTest (cursor.advance 1)
    return (.attributeIs required, after)

theorem readIdentifier_remaining_le {expectation : Expectation} {cursor after : Cursor}
    {name : Text} (success : readIdentifier expectation cursor = .ok (name, after)) :
    after.remaining ≤ cursor.remaining := by
  simp only [readIdentifier] at success
  split at success
  · cases success
  · cases success
    exact cursor.span_remaining_le _

theorem readQuotedValue_remaining_le {quote : CodeUnit} {cursor after : Cursor} {value : Text}
    (success : readQuotedValue quote cursor = .ok (value, after)) :
    after.remaining ≤ cursor.remaining := by
  simp only [readQuotedValue] at success
  split at success
  · cases success
  · cases success
    exact Nat.le_trans (Cursor.advance_remaining_le _ _)
      (Nat.le_trans (Cursor.span_remaining_le _ _) (Cursor.advance_remaining_le _ _))

theorem readValue_remaining_le {cursor after : Cursor} {value : Text}
    (success : readValue cursor = .ok (value, after)) : after.remaining ≤ cursor.remaining := by
  unfold readValue at success
  split at success
  · exact readQuotedValue_remaining_le success
  · exact readQuotedValue_remaining_le success
  · exact readIdentifier_remaining_le success

theorem readEquals_remaining_le {cursor after : Cursor} (success : readEquals cursor = .ok after) :
    after.remaining ≤ cursor.remaining := by
  unfold readEquals at success
  split at success
  · cases success
    exact cursor.advance_remaining_le 1
  · cases success

theorem readClosingBracket_remaining_le {cursor after : Cursor}
    (success : readClosingBracket cursor = .ok after) : after.remaining ≤ cursor.remaining := by
  unfold readClosingBracket at success
  split at success
  · cases success
    exact cursor.advance_remaining_le 1
  · cases success

theorem readAttributeTest_remaining_le {cursor after : Cursor} {required : Attribute}
    (success : readAttributeTest cursor = .ok (required, after)) :
    after.remaining ≤ cursor.remaining := by
  obtain ⟨⟨name, afterName⟩, named, success⟩ := ok_of_bind_ok success
  obtain ⟨afterEquals, equals, success⟩ := ok_of_bind_ok success
  obtain ⟨⟨value, afterValue⟩, valued, success⟩ := ok_of_bind_ok success
  obtain ⟨finish, closed, success⟩ := ok_of_bind_ok success
  cases success
  have := readIdentifier_remaining_le named
  have := readEquals_remaining_le equals
  have := readValue_remaining_le valued
  have := readClosingBracket_remaining_le closed
  have := cursor.skipWhitespace_remaining_le
  have := afterName.skipWhitespace_remaining_le
  have := afterEquals.skipWhitespace_remaining_le
  have := afterValue.skipWhitespace_remaining_le
  omega

theorem readCondition_remaining_lt {cursor after : Cursor} {condition : Condition}
    (nonempty : 0 < cursor.remaining) (success : readCondition cursor = .ok (condition, after)) :
    after.remaining < cursor.remaining := by
  have moved := cursor.advance_remaining_lt 1 nonempty Nat.one_pos
  unfold readCondition at success
  split at success
  · obtain ⟨⟨value, finish⟩, found, success⟩ := ok_of_bind_ok success
    cases success
    exact Nat.lt_of_le_of_lt (readIdentifier_remaining_le found) moved
  · obtain ⟨⟨value, finish⟩, found, success⟩ := ok_of_bind_ok success
    cases success
    exact Nat.lt_of_le_of_lt (readIdentifier_remaining_le found) moved
  · obtain ⟨⟨required, finish⟩, found, success⟩ := ok_of_bind_ok success
    cases success
    exact Nat.lt_of_le_of_lt (readAttributeTest_remaining_le found) moved

def readConditions (cursor : Cursor) : Reading (List Condition × Cursor) :=
  match _shows : cursor.rest with
  | [] => .ok ([], cursor)
  | unit :: _ =>
    if startsCondition unit then
      match _success : readCondition cursor with
      | .error failure => .error failure
      | .ok (condition, after) => do
        let (conditions, finish) ← readConditions after
        return (condition :: conditions, finish)
    else .ok ([], cursor)
termination_by cursor.remaining
decreasing_by exact readCondition_remaining_lt (by simp [Cursor.remaining, _shows]) _success

def readTag (cursor : Cursor) : Option Text × Cursor :=
  match cursor.rest with
  | 0x2A :: _ => (none, cursor.advance 1)
  | unit :: _ =>
    if CodeUnit.isIdentifierUnit unit then
      (some (cursor.span CodeUnit.isIdentifierUnit).1,
        (cursor.span CodeUnit.isIdentifierUnit).2)
    else (none, cursor)
  | [] => (none, cursor)

def startsCompound : Text → Bool
  | unit :: _ => unit == 0x2A || startsCondition unit || CodeUnit.isIdentifierUnit unit
  | [] => false

def readCompound (cursor : Cursor) : Reading (Selector × Cursor) :=
  if startsCompound cursor.rest then do
    let (tag, afterTag) := readTag cursor
    let (conditions, after) ← readConditions afterTag
    return (selectorOf tag conditions, after)
  else .error ⟨.selector, cursor.position⟩

theorem readTag_remaining_le (cursor : Cursor) :
    (readTag cursor).2.remaining ≤ cursor.remaining := by
  unfold readTag
  split
  · exact cursor.advance_remaining_le 1
  · split
    · exact cursor.span_remaining_le _
    · exact Nat.le_refl _
  · exact Nat.le_refl _

theorem readConditions_remaining_le {cursor after : Cursor} {conditions : List Condition}
    (success : readConditions cursor = .ok (conditions, after)) :
    after.remaining ≤ cursor.remaining := by
  fun_induction readConditions cursor generalizing conditions with
  | case1 => cases success; exact Nat.le_refl _
  | case2 => cases success
  | case3 cursor unit rest shows _ _ next read shorter =>
    obtain ⟨⟨conditions, finish⟩, more, success⟩ := ok_of_bind_ok success
    cases success
    exact Nat.le_of_lt (Nat.lt_of_le_of_lt (shorter more)
      (readCondition_remaining_lt (by simp [Cursor.remaining, shows]) read))
  | case4 => cases success; exact Nat.le_refl _

theorem readCompound_remaining_le {cursor after : Cursor} {selector : Selector}
    (success : readCompound cursor = .ok (selector, after)) :
    after.remaining ≤ cursor.remaining := by
  unfold readCompound at success
  split at success
  · obtain ⟨⟨conditions, finish⟩, found, success⟩ := ok_of_bind_ok success
    cases success
    exact Nat.le_trans (readConditions_remaining_le found) (readTag_remaining_le cursor)
  · cases success

end HtmlFragments.Query
