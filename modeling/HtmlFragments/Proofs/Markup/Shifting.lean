import HtmlFragments.Proofs.Markup.Descent
import HtmlFragments.Proofs.Markup.TagLookahead

/-! # Reading behind another text

What is read from a place does not depend on what stands before it: with more units before it the
same is read, and a failure is reported that much later. Only raw text looks at the source as a
whole, and there at the lower case from its own place on. -/
set_option autoImplicit false

namespace HtmlFragments

namespace Cursor

def shift (count : Nat) (cursor : Cursor) : Cursor := ⟨count + cursor.position, cursor.rest⟩

variable (count : Nat) (cursor : Cursor)

@[simp]
theorem rest_shift : (cursor.shift count).rest = cursor.rest := rfl

@[simp]
theorem position_shift : (cursor.shift count).position = count + cursor.position := rfl

@[simp]
theorem advance_shift (length : Nat) :
    (cursor.shift count).advance length = (cursor.advance length).shift count := by
  simp only [advance, shift, Nat.add_assoc]

@[simp]
theorem span_shift (belongs : CodeUnit → Bool) :
    (cursor.shift count).span belongs =
      ((cursor.span belongs).1, (cursor.span belongs).2.shift count) := by
  simp only [span, rest_shift, advance_shift]

@[simp]
theorem skipWhitespace_shift :
    (cursor.shift count).skipWhitespace = cursor.skipWhitespace.shift count := by
  simp only [skipWhitespace, span_shift]

theorem between_append (first before text : Text) :
    between (first ++ before) text = (between before text).shift first.length := by
  simp only [between, shift, List.length_append]

end Cursor

namespace Markup

def shiftPlace {Value : Type} (count : Nat) (found : Value × Cursor) : Value × Cursor :=
  (found.1, found.2.shift count)

/-- The outcome of reading with `count` more units before. -/
def Reading.shift {Value : Type} (count : Nat) (change : Value → Value) :
    Reading Value → Reading Value
  | .ok value => .ok (change value)
  | .error failure => .error ⟨failure.expectation, count + failure.position⟩

theorem shift_bind {Item Value : Type} {count : Nat} {change : Item → Item}
    {later : Value → Value} {reading : Reading Item} {next other : Item → Reading Value}
    (same : ∀ item, reading = .ok item → other (change item) = (next item).shift count later) :
    reading.shift count change >>= other = (reading >>= next).shift count later := by
  cases reading with
  | error failure => rfl
  | ok item => exact same item rfl

variable (count : Nat) (cursor : Cursor)

theorem readQuotedValue_shift (quote : CodeUnit) :
    readQuotedValue quote (cursor.shift count) =
      (readQuotedValue quote cursor).shift count (shiftPlace count) := by
  simp only [readQuotedValue, Cursor.advance_shift, Cursor.rest_shift]
  split <;> rfl

theorem readBareValue_shift :
    readBareValue (cursor.shift count) =
      (readBareValue cursor).shift count (shiftPlace count) := by
  simp only [readBareValue, Cursor.advance_shift, Cursor.rest_shift]
  split <;> rfl

theorem readValue_shift :
    readValue (cursor.shift count) = (readValue cursor).shift count (shiftPlace count) := by
  unfold readValue
  rw [Cursor.rest_shift]
  split
  · exact readQuotedValue_shift count cursor 0x22
  · exact readQuotedValue_shift count cursor 0x27
  · exact readBareValue_shift count cursor

theorem readAttribute_shift :
    readAttribute (cursor.shift count) =
      (readAttribute cursor).shift count (shiftPlace count) := by
  simp only [readAttribute, Cursor.span_shift, Cursor.skipWhitespace_shift, Cursor.rest_shift,
    Cursor.advance_shift]
  split
  · rw [readValue_shift]
    exact shift_bind fun _ _ => rfl
  · rfl

theorem readAttributes_between_append (tag front before text : Text) :
    readAttributes tag (.between (front ++ before) text) =
      (readAttributes tag (.between before text)).shift front.length (shiftPlace front.length) := by
  induction size : text.length using Nat.strongRecOn generalizing before text with
  | ind length ih =>
    obtain ⟨spaces, rest, rfl, blank, isTagEnd | isPair | fails⟩ := readAttributes_cases tag text
    · obtain ⟨tagEnd, next, rfl⟩ := isTagEnd
      rw [readAttributes_end tag _ blank, readAttributes_end tag _ blank, List.append_assoc,
        Cursor.between_append]
      rfl
    · obtain ⟨unit, begins, goesOn⟩ := isPair
      rw [goesOn.reads _ rest begins, goesOn.reads _ rest begins, List.append_assoc,
        Cursor.between_append, readAttribute_shift]
      refine shift_bind ?_
      rintro ⟨entry, after⟩ pair
      obtain ⟨word, tail, rfl, front, rfl, -, -⟩ := readAttribute_lookahead goesOn.named begins pair
      have shorter : tail.length < length := size ▸ Text.length_lt_of_head? front spaces tail
      have later := ih tail.length shorter (before ++ spaces ++ word) tail rfl
      rw [Cursor.between_append] at later
      simp only [shiftPlace]
      rw [later]
      exact shift_bind fun _ _ => rfl
    · rw [fails, fails, List.append_assoc, List.length_append]
      rfl

theorem readAttributes_shift (tag : Text) :
    readAttributes tag (cursor.shift count) =
      (readAttributes tag cursor).shift count (shiftPlace count) := by
  obtain ⟨before, place⟩ := cursor.exists_between
  obtain ⟨front, rfl⟩ : ∃ front : Text, count = front.length :=
    ⟨List.replicate count 0, List.length_replicate.symm⟩
  rw [place, ← Cursor.between_append, readAttributes_between_append]

theorem readStartTag_shift :
    readStartTag (cursor.shift count) =
      (readStartTag cursor).shift count (shiftPlace count) := by
  simp only [readStartTag, Cursor.span_shift, Cursor.advance_shift]
  rw [readAttributes_shift]
  exact shift_bind fun _ _ => rfl

theorem readTagName_shift :
    readTagName (cursor.shift count) = (readTagName cursor).map (shiftPlace count) := by
  unfold readTagName
  rw [Cursor.rest_shift]
  split
  · split
    · rw [Cursor.span_shift]
      rfl
    · rfl
  · rfl

theorem readEndTag_shift (tag : Text) :
    readEndTag tag (cursor.shift count) = (readEndTag tag cursor).shift count (.shift count) := by
  unfold readEndTag
  rw [Cursor.rest_shift, Cursor.advance_shift, readTagName_shift]
  split
  · cases readTagName (cursor.advance 2) with
    | none => rfl
    | some found =>
      simp only [Option.map_some, shiftPlace, Cursor.skipWhitespace_shift, Cursor.rest_shift,
        Cursor.advance_shift]
      split
      · split <;> rfl
      · rfl
  · rfl

theorem skipComment_shift :
    skipComment (cursor.shift count) = (skipComment cursor).shift count (.shift count) := by
  simp only [skipComment, Cursor.advance_shift, Cursor.rest_shift]
  split <;> rfl

theorem skipDeclaration_shift :
    skipDeclaration (cursor.shift count) =
      (skipDeclaration cursor).shift count (.shift count) := by
  simp only [skipDeclaration, Cursor.advance_shift, Cursor.rest_shift]
  split <;> rfl

theorem readText_shift : readText (cursor.shift count) = shiftPlace count (readText cursor) := by
  simp only [readText, Cursor.advance_shift, Cursor.rest_shift]
  rfl

theorem readRawText_shift (front lowered tag : Text) :
    readRawText (front ++ lowered) tag (cursor.shift front.length) =
      (readRawText lowered tag cursor).shift front.length (shiftPlace front.length) := by
  simp only [readRawText, Cursor.position_shift, List.drop_length_add_append, Cursor.rest_shift,
    Cursor.advance_shift]
  split
  · simp only [Reading.shift, Nat.add_assoc]
  · rw [readEndTag_shift]
    exact shift_bind fun _ _ => rfl

theorem openElement_shift (front lowered : Text) (startTag : StartTag) :
    openElement (front ++ lowered) startTag (cursor.shift front.length) =
      (openElement lowered startTag cursor).shift front.length (shiftPlace front.length) := by
  simp only [openElement]
  split
  · rfl
  · split
    · rw [readRawText_shift]
      exact shift_bind fun _ _ => rfl
    · rfl

theorem readOpening_shift (front lowered : Text) :
    readOpening (front ++ lowered) (cursor.shift front.length) =
      (readOpening lowered cursor).shift front.length (shiftPlace front.length) := by
  simp only [readOpening]
  rw [readStartTag_shift]
  exact shift_bind fun found _ => openElement_shift found.2 front lowered found.1

namespace Progress

theorem leave_shift (progress : Progress) :
    progress.leave (cursor.shift count) =
      (progress.leave cursor).shift count (shiftPlace count) := by
  unfold leave
  split
  · rfl
  · rw [readEndTag_shift]
    exact shift_bind fun _ _ => rfl

theorem step_shift (front lowered : Text) (progress : Progress) :
    progress.step (front ++ lowered) (cursor.shift front.length) =
      (progress.step lowered cursor).shift front.length (shiftPlace front.length) := by
  unfold step
  rw [Cursor.rest_shift]
  split
  · exact leave_shift front.length cursor progress
  · rw [skipComment_shift]
    exact shift_bind fun _ _ => rfl
  · rw [skipDeclaration_shift]
    exact shift_bind fun _ _ => rfl
  · rw [readOpening_shift]
    exact shift_bind fun _ _ => rfl
  · rw [readText_shift]
    rfl

/-- A run behind another text ends as it does without that text. -/
theorem run_shift (front lowered : Text) (progress : Progress) :
    progress.run (front ++ lowered) (cursor.shift front.length) =
      (progress.run lowered cursor).shift front.length id := by
  induction size : cursor.remaining using Nat.strongRecOn generalizing cursor progress with
  | ind length ih =>
    by_cases finished : cursor.rest = []
    · have shifted : (cursor.shift front.length).rest = [] := finished
      rw [run_of_end progress finished, run_of_end progress shifted]
      unfold finish
      split <;> rfl
    · have shifted : (cursor.shift front.length).rest ≠ [] := finished
      rw [run_of_nonempty progress finished, run_of_nonempty progress shifted, step_shift]
      refine shift_bind fun found steps => ?_
      have nonempty : 0 < cursor.remaining := List.length_pos_iff.mpr finished
      have shorter := step_remaining_lt nonempty steps
      exact ih _ (size ▸ shorter) found.2 found.1 rfl

end Progress
end Markup
end HtmlFragments
