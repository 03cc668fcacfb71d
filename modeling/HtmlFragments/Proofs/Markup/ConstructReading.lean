import HtmlFragments.Proofs.Markup.ContentReading

/-! # Constructs that were read

An end tag, a comment or a declaration that was read has the form that the grammar gives it, and
reading one fails where it begins. Raw text ends at the first place where its end tag is found. -/
set_option autoImplicit false

namespace HtmlFragments.Markup

open Grammar
open Text (Stops AllOf Blank)

/-! ## End tags -/

theorem readTagName_eq_some {before text name : Text} {after : Cursor}
    (found : readTagName (.between before text) = some (name, after)) :
    ∃ rest, text = name ++ rest ∧ IsTagName name ∧ after = .between (before ++ name) rest := by
  obtain ⟨letters, rest, rfl, inside, stops⟩ := Text.exists_run CodeUnit.isNameUnit text
  unfold readTagName at found
  split at found
  · rename_i unit more shows
    split at found
    · rename_i first
      rw [Cursor.span_between _ before letters rest inside stops] at found
      cases found
      refine ⟨rest, rfl, ?_, rfl⟩
      cases name with
      | nil =>
        have begins : rest = unit :: more := shows
        have letter : CodeUnit.isLetter unit = true := first
        rw [begins] at stops
        have outside : CodeUnit.isNameUnit unit = false := stops
        simp [CodeUnit.isNameUnit, CodeUnit.isIdentifierUnit, letter] at outside
      | cons letter others =>
        have begins : letter = unit := (List.cons.inj shows).1
        rw [begins]
        exact ⟨first, ((Text.allOf_cons _ _ _).mp inside).2⟩
    · cases found
  · cases found

theorem endTagText_of_readEndTag {tag before text : Text} {after : Cursor}
    (success : readEndTag tag (.between before text) = .ok after) :
    ∃ closing rest, text = closing ++ rest ∧ EndTagText tag closing ∧
      after = .between (before ++ closing) rest := by
  unfold readEndTag at success
  split at success
  · rename_i more opening
    have begins : text = [0x3C, 0x2F] ++ more := opening
    subst begins
    rw [Cursor.advance_between before _ more 2 rfl] at success
    split at success
    · rename_i name afterName named
      obtain ⟨tail, rfl, isName, rfl⟩ := readTagName_eq_some named
      obtain ⟨spaces, last, rfl, blank, stops⟩ := Text.exists_run CodeUnit.isWhitespace tail
      rw [Cursor.skipWhitespace_between _ spaces last blank stops] at success
      split at success
      · rename_i rest close
        have ends : last = [0x3E] ++ rest := close
        subst ends
        rw [Cursor.advance_between _ _ rest 1 rfl] at success
        split at success
        · rename_i same
          cases success
          refine ⟨0x3C :: 0x2F :: (name ++ (spaces ++ [0x3E])), rest, by simp,
            .spaced isName same blank, by simp⟩
        · cases success
      · cases success
    · cases success
  · cases success

theorem readEndTag_failure {tag : Text} {cursor : Cursor} {failure : Failure Expectation}
    (failed : readEndTag tag cursor = .error failure) : failure.position = cursor.position := by
  unfold readEndTag at failed
  split at failed
  · split at failed
    · split at failed
      · split at failed <;> cases failed
        rfl
      · cases failed
        rfl
    · cases failed
      rfl
  · cases failed
    rfl

/-! ## Comments and declarations -/

theorem aside_of_skipComment {before text : Text} {after : Cursor}
    (success : skipComment (.between before (0x3C :: 0x21 :: 0x2D :: 0x2D :: text)) = .ok after) :
    ∃ written rest, 0x3C :: 0x21 :: 0x2D :: 0x2D :: text = written ++ rest ∧ Aside written ∧
      after = .between (before ++ written) rest := by
  unfold skipComment at success
  split at success
  · rename_i length index
    obtain ⟨inner, rest, shape, rfl, absent⟩ :=
      Text.indexOf?_eq_some (List.cons_ne_nil _ _) index
    have whole : text = inner ++ ([0x2D, 0x2D, 0x3E] ++ rest) := shape
    subst whole
    have aside := Aside.comment absent
    have skipped := skipComment_between before rest absent
    refine ⟨_, rest, by simp, aside, ?_⟩
    simp only [List.cons_append, List.append_assoc, List.nil_append, skipComment] at skipped index
    rw [index] at skipped
    cases success
    have finish := Except.ok.inj skipped
    simpa using finish
  · cases success

theorem aside_of_skipDeclaration {before text : Text} {after : Cursor}
    (noComment : ¬[0x2D, 0x2D] <+: text)
    (success : skipDeclaration (.between before (0x3C :: 0x21 :: text)) = .ok after) :
    ∃ written rest, 0x3C :: 0x21 :: text = written ++ rest ∧ Aside written ∧
      after = .between (before ++ written) rest := by
  unfold skipDeclaration at success
  split at success
  · rename_i length index
    obtain ⟨front, rest, shape, rfl, absent⟩ :=
      Text.indexOf?_eq_some (List.cons_ne_nil _ _) index
    have noEnd : (0x3E : CodeUnit) ∉ front := by
      intro member
      obtain ⟨start, last, rfl⟩ := List.append_of_mem member
      exact absent ⟨start, last, by simp⟩
    obtain ⟨inner, rfl⟩ : ∃ inner, front = 0x3C :: 0x21 :: inner := by
      rcases front with _ | ⟨first, _ | ⟨second, inner⟩⟩
      · cases shape
      · cases shape
      · cases shape
        exact ⟨inner, rfl⟩
    have whole : text = inner ++ 0x3E :: rest := by simpa using shape
    subst whole
    have noCommentInside : ¬[0x2D, 0x2D] <+: inner := fun begins =>
      noComment (begins.trans (List.prefix_append _ _))
    have closed : (0x3E : CodeUnit) ∉ inner := fun member => noEnd (.tail _ (.tail _ member))
    have finish := Cursor.advance_between before (0x3C :: 0x21 :: (inner ++ [0x3E])) rest
      (inner.length + 2 + 1) (by simp)
    refine ⟨0x3C :: 0x21 :: (inner ++ [0x3E]), rest, by simp,
      .declaration closed noCommentInside, ?_⟩
    cases success
    simpa using finish
  · cases success

theorem skipComment_failure {cursor : Cursor} {failure : Failure Expectation}
    (failed : skipComment cursor = .error failure) : failure.position = cursor.position := by
  unfold skipComment at failed
  split at failed <;> cases failed
  rfl

theorem skipDeclaration_failure {cursor : Cursor} {failure : Failure Expectation}
    (failed : skipDeclaration cursor = .error failure) : failure.position = cursor.position := by
  unfold skipDeclaration at failed
  split at failed <;> cases failed
  rfl

/-! ## Raw text -/

theorem rawText_of_readRawText {source before tag text value : Text} {after : Cursor}
    (success : readRawText source.lowerCase tag (.between before text) = .ok (value, after)) :
    ∃ closing rest, text = value ++ (closing ++ rest) ∧ EndTagText tag closing ∧
      FoundAfter source before tag value ∧ after = .between (before ++ value ++ closing) rest := by
  unfold readRawText at success
  split at success
  · cases success
  · rename_i length index
    obtain ⟨finish, closed, shape⟩ := ok_of_bind_ok success
    cases shape
    have inside : length ≤ text.length := by
      rcases Nat.le_total length text.length with inside | outside
      · exact inside
      · have nothing : ((Cursor.between before text).advance length).rest = [] :=
          List.drop_of_length_le outside
        simp only [readEndTag, nothing] at closed
        cases closed
    have split : text.take length ++ text.drop length = text := List.take_append_drop _ _
    have count : length = (text.take length).length := by rw [List.length_take_of_le inside]
    have place := Cursor.advance_between before (text.take length) (text.drop length) length count
    rw [split] at place
    rw [place] at closed
    obtain ⟨closing, rest, shape, closes, rfl⟩ := endTagText_of_readEndTag closed
    refine ⟨closing, rest, by rw [← shape]; exact split.symm, closes, ?_, rfl⟩
    show Text.indexOf? _ (source.lowerCase.drop before.length) = some (text.take length).length
    rw [← count]
    exact index

/-- Where raw text cannot be read its end tag can follow: none stands before that place. -/
theorem free_of_readRawText {before tag text : Text} {failure : Failure Expectation}
    (raw : isRawText tag = true) (undotted : CodeUnit.dottedCapital ∉ before ++ text)
    (failed : readRawText (before ++ text).lowerCase tag (.between before text) =
      .error failure) :
    ∃ value rest, text = value ++ rest ∧ failure.position = (before ++ value).length ∧
      ¬HoldsEndTag tag value := by
  obtain ⟨undottedBefore, undottedText⟩ := not_or.mp (mt List.mem_append.mpr undotted)
  have lowered := Text.lowered_drop text undottedBefore
  unfold readRawText at failed
  split at failed
  · rename_i missing
    cases failed
    refine ⟨text, [], by simp, by simp, ?_⟩
    intro holds
    exact Text.not_infix_of_indexOf?_eq_none missing (infix_of_holdsEndTag raw holds lowered)
  · rename_i length index
    obtain ⟨inside, more, shape, rfl, absent⟩ := Text.indexOf?_eq_some (List.cons_ne_nil _ _) index
    have whole : (before ++ text).lowerCase.drop before.length = inside ++ (_ ++ more) := shape
    rw [whole] at lowered
    obtain ⟨value, rest, rfl, lowersValue, _⟩ := Text.lowered_split undottedText lowered
    have undottedValue : CodeUnit.dottedCapital ∉ value := fun member =>
      undottedText (List.mem_append_left _ member)
    refine ⟨value, rest, rfl, ?_, fun holds => absent (infix_of_holdsEndTag raw holds lowersValue)⟩
    rcases error_of_bind_error failed with wrong | ⟨_, _, done⟩
    · rw [readEndTag_failure wrong, List.length_append,
        ← Text.lowered_length undottedValue lowersValue]
      rfl
    · cases done

end HtmlFragments.Markup
