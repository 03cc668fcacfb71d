import HtmlFragments.Document.Basic
import HtmlFragments.Markup.Tag

/-! # Constructs of content

What stands at a place in content is decided by its first units. Each construct has a reader that
ends strictly after the place it began. -/
set_option autoImplicit false

namespace HtmlFragments.Markup

inductive Construct where
  | endTag
  | comment
  | declaration
  | startTag
  | text
deriving DecidableEq, Repr

/-- The construct that begins with the given text. A `<` that starts no other one is text. -/
def Construct.ofText : Text → Construct
  | 0x3C :: 0x2F :: _ => .endTag
  | 0x3C :: 0x21 :: 0x2D :: 0x2D :: _ => .comment
  | 0x3C :: 0x21 :: _ => .declaration
  | 0x3C :: unit :: _ => if CodeUnit.startsTagName unit then .startTag else .text
  | _ => .text

def endsText (rest : Text) : Bool := Construct.ofText rest != .text

def readText (cursor : Cursor) : Text × Cursor :=
  let data := CharacterData.read endsText cursor.rest
  (data.1, cursor.advance data.2)

def skipComment (cursor : Cursor) : Reading Cursor :=
  match Text.indexOf? [0x2D, 0x2D, 0x3E] (cursor.advance 4).rest with
  | some length => .ok ((cursor.advance 4).advance (length + 3))
  | none => .error ⟨.commentEnd, cursor.position⟩

def skipDeclaration (cursor : Cursor) : Reading Cursor :=
  match Text.indexOf? [0x3E] cursor.rest with
  | some length => .ok (cursor.advance (length + 1))
  | none => .error ⟨.declarationEnd, cursor.position⟩

/-- Reads the content of a raw text element and its end tag.

The end tag is looked up from the same position in `lowered`, the lower case of the whole source,
and the distance found there is used in the source itself. -/
def readRawText (lowered tag : Text) (cursor : Cursor) : Reading (Text × Cursor) :=
  match Text.indexOf? (0x3C :: 0x2F :: tag.lowerCase) (lowered.drop cursor.position) with
  | none => .error ⟨.endTag tag, cursor.position + cursor.rest.length⟩
  | some length => do
    let after ← readEndTag tag (cursor.advance length)
    return (cursor.rest.take length, after)

def textNodes (value : Text) : List Node := if value.isEmpty then [] else [.text value]

/-- What a start tag makes: an element that is complete, or one whose content follows. -/
inductive Opening where
  | complete (node : Node)
  | content (tag : Text) (attributes : List Attribute)
deriving DecidableEq, Repr

/-- Completes a start tag that closes its element at once or opens a void or raw text one. -/
def openElement (lowered : Text) (startTag : StartTag) (cursor : Cursor) :
    Reading (Opening × Cursor) :=
  let element (children : List Node) : Opening :=
    .complete (.element startTag.tag startTag.attributes children)
  if startTag.tagEnd = .selfClosing ∨ isVoid startTag.tag then .ok (element [], cursor)
  else if isRawText startTag.tag then do
    let (value, after) ← readRawText lowered startTag.tag cursor
    return (element (textNodes value), after)
  else .ok (.content startTag.tag startTag.attributes, cursor)

def readOpening (lowered : Text) (cursor : Cursor) : Reading (Opening × Cursor) := do
  let (startTag, after) ← readStartTag cursor
  openElement lowered startTag after

theorem readText_remaining_lt {cursor : Cursor} (nonempty : 0 < cursor.remaining)
    (text : Construct.ofText cursor.rest = .text) :
    (readText cursor).2.remaining < cursor.remaining := by
  cases shown : cursor.rest with
  | nil => simp [Cursor.remaining, shown] at nonempty
  | cons unit rest =>
    have continues : endsText (unit :: rest) = false := by simp [endsText, ← shown, text]
    have moves := CharacterData.read_count_pos endsText unit rest continues
    rw [← shown] at moves
    exact cursor.advance_remaining_lt _ nonempty moves

theorem skipComment_remaining_lt {cursor after : Cursor} (nonempty : 0 < cursor.remaining)
    (success : skipComment cursor = .ok after) : after.remaining < cursor.remaining := by
  unfold skipComment at success
  split at success
  · cases success
    exact Nat.lt_of_le_of_lt (Cursor.advance_remaining_le _ _)
      (cursor.advance_remaining_lt 4 nonempty (by decide))
  · cases success

theorem skipDeclaration_remaining_lt {cursor after : Cursor} (nonempty : 0 < cursor.remaining)
    (success : skipDeclaration cursor = .ok after) : after.remaining < cursor.remaining := by
  unfold skipDeclaration at success
  split at success
  · cases success
    exact cursor.advance_remaining_lt _ nonempty (Nat.succ_pos _)
  · cases success

theorem readRawText_remaining_lt {lowered tag value : Text} {cursor after : Cursor}
    (success : readRawText lowered tag cursor = .ok (value, after)) :
    after.remaining < cursor.remaining := by
  unfold readRawText at success
  split at success
  · cases success
  · obtain ⟨finish, closed, rest⟩ := ok_of_bind_ok success
    cases rest
    exact Nat.lt_of_lt_of_le (readEndTag_remaining_lt closed) (cursor.advance_remaining_le _)

theorem openElement_remaining_le {lowered : Text} {startTag : StartTag} {cursor after : Cursor}
    {opening : Opening} (success : openElement lowered startTag cursor = .ok (opening, after)) :
    after.remaining ≤ cursor.remaining := by
  simp only [openElement] at success
  split at success
  · cases success
    exact Nat.le_refl _
  · split at success
    · obtain ⟨⟨value, finish⟩, raw, rest⟩ := ok_of_bind_ok success
      cases rest
      exact Nat.le_of_lt (readRawText_remaining_lt raw)
    · cases success
      exact Nat.le_refl _

theorem readOpening_remaining_lt {lowered : Text} {cursor after : Cursor} {opening : Opening}
    (nonempty : 0 < cursor.remaining) (success : readOpening lowered cursor = .ok (opening, after)) :
    after.remaining < cursor.remaining := by
  obtain ⟨⟨startTag, finish⟩, started, opened⟩ := ok_of_bind_ok success
  exact Nat.lt_of_le_of_lt (openElement_remaining_le opened)
    (readStartTag_remaining_lt nonempty started)

end HtmlFragments.Markup
