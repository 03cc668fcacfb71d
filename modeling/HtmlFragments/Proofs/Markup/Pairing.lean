import HtmlFragments.Proofs.Markup.DataLookahead
import HtmlFragments.Proofs.Text.Pairing

/-! # Surrogate pairs in tags and data

Readers cut a text at units in ASCII or where a class ends that holds all surrogates, and a
reference makes whole characters. So what they read of a text in which all surrogates are paired is
such a text, and the rest is one as well. -/
set_option autoImplicit false

namespace HtmlFragments

open Text (Paired)

namespace Reference

open Markup.Grammar (standsFor)

theorem paired_standsFor (number : Nat) : Paired (standsFor number) := by
  unfold standsFor
  split
  · rename_i point
    exact Text.paired_encode point.2.1 point.2.2
  · exact Text.isWellFormed_iff.mp rfl

theorem paired_named {name value : Text} (known : named? name = some value) : Paired value := by
  have entries : ∀ entry ∈ names, entry.2.isWellFormed = true := by decide
  have members : ∀ member ∈ NameTable.members, member.2.isWellFormed = true := by decide +kernel
  rcases named?_cases known with entry | member
  · exact Text.isWellFormed_iff.mp (entries _ entry)
  · exact Text.isWellFormed_iff.mp (members _ member)

theorem paired_semicolon {rest : Text} (paired : Paired rest) :
    Paired (rest.drop (semicolonLength rest)) := by
  unfold semicolonLength
  split
  · exact paired.after_single (by decide)
  · exact paired

theorem paired_readDigits (base : Nat) {isDigit : CodeUnit → Bool} {opening rest : Text}
    (ascii : ∀ unit, isDigit unit = true → CodeUnit.isSurrogate unit = false)
    (opens : Paired (0x26 :: opening)) (paired : Paired rest) :
    Paired (readDigits base isDigit opening rest).1 ∧
      Paired ((opening ++ rest).drop (readDigits base isDigit opening rest).2) := by
  obtain ⟨digits, tail, rfl, inside, stops⟩ := Text.exists_run isDigit rest
  have outside : Text.AllOf (fun unit => !CodeUnit.isSurrogate unit) digits := fun unit member => by
    simp [ascii unit (inside unit member)]
  simp only [readDigits, Text.takeWhile_append_of_stops _ _ _ inside stops,
    Text.dropWhile_append_of_stops _ _ _ inside stops]
  split
  · rw [List.drop_left]
    exact ⟨opens, paired⟩
  · rw [pointText_ofNat, ← List.append_assoc, ← List.length_append, List.drop_length_add_append]
    exact ⟨paired_standsFor _, paired_semicolon (paired.of_append_allOf outside)⟩

theorem not_isSurrogate_of_isHexDigit (unit : CodeUnit)
    (isDigit : CodeUnit.isHexDigit unit = true) : CodeUnit.isSurrogate unit = false := by
  rw [← Bool.not_eq_true, CodeUnit.isSurrogate_iff]
  simp only [CodeUnit.isHexDigit, CodeUnit.isDigit, Bool.or_eq_true, Bool.and_eq_true,
    decide_eq_true_eq, UInt16.le_iff_toNat_le, UInt16.reduceToNat] at isDigit
  omega

theorem not_isSurrogate_of_isDigit (unit : CodeUnit) (isDigit : CodeUnit.isDigit unit = true) :
    CodeUnit.isSurrogate unit = false :=
  not_isSurrogate_of_isHexDigit unit (by simp [CodeUnit.isHexDigit, isDigit])

theorem paired_readNumeric {rest : Text} (paired : Paired rest) :
    Paired (readNumeric rest).1 ∧ Paired ((0x23 :: rest).drop (readNumeric rest).2) := by
  unfold readNumeric
  split
  · exact paired_readDigits 16 not_isSurrogate_of_isHexDigit (Text.isWellFormed_iff.mp rfl)
      (paired.after_single (by decide))
  · exact paired_readDigits 16 not_isSurrogate_of_isHexDigit (Text.isWellFormed_iff.mp rfl)
      (paired.after_single (by decide))
  · exact paired_readDigits 10 not_isSurrogate_of_isDigit (Text.isWellFormed_iff.mp rfl) paired

theorem takesLow_isReferenceNameUnit : Text.TakesLow isReferenceNameUnit := by
  intro unit low
  have differs : unit ≠ 0x3A := CodeUnit.ne_of_isLowSurrogate low (by decide)
  simp [isReferenceNameUnit, CodeUnit.takesLow_isNameUnit unit low, differs]

theorem takesLow_isLookedAt : Text.TakesLow isLookedAt := fun unit low =>
  isLookedAt_of_isReferenceNameUnit unit (takesLow_isReferenceNameUnit unit low)

theorem paired_readNamed {rest : Text} (paired : Paired rest) :
    Paired (readNamed rest).1 ∧ Paired (rest.drop (readNamed rest).2) := by
  obtain ⟨name, tail, rfl, inside, stops⟩ := Text.exists_run isReferenceNameUnit rest
  obtain ⟨pairedName, pairedTail⟩ := paired.cut (stops.mono takesLow_isReferenceNameUnit)
  simp only [readNamed, Text.takeWhile_append_of_stops _ _ _ inside stops,
    Text.dropWhile_append_of_stops _ _ _ inside stops]
  split
  · rename_i value more known
    rw [List.drop_length_add_append]
    exact ⟨paired_named known, pairedTail.after_single (by decide)⟩
  · rw [List.drop_left]
    exact ⟨.single (by decide) pairedName, pairedTail⟩

theorem paired_read {text : Text} (paired : Paired text) :
    Paired (read text).1 ∧ Paired (text.drop (read text).2) := by
  unfold read
  split
  · exact paired_readNumeric (paired.after_single (by decide))
  · exact paired_readNamed paired

end Reference

namespace CharacterData

theorem Foresees.stopsLow {ends : Text → Bool} (foresees : Foresees ends) {rest : Text}
    (ended : Ended ends rest) : Text.Stops CodeUnit.isLowSurrogate rest :=
  (foresees.stops ended).mono Reference.takesLow_isLookedAt

/-- Data is copied unit by unit, so that half of a pair may already stand in front of it. -/
theorem paired_append_read {ends : Text → Bool} (foresees : Foresees ends) (text : Text) :
    ∀ front, Paired (front ++ text) →
      Paired (front ++ (read ends text).1) ∧ Paired (text.drop (read ends text).2) := by
  induction text using read.induct ends with
  | case1 =>
    intro front paired
    rw [read_ended (.inl rfl)]
    exact ⟨paired, .nil⟩
  | case2 unit rest ended =>
    intro front paired
    rw [read_ended (.inr ended), List.append_nil]
    exact paired.cut (foresees.stopsLow (.inr ended))
  | case3 text reference notEnds ih =>
    intro front paired
    obtain ⟨before, whole⟩ := paired.cut rfl
    obtain ⟨stands, later⟩ := Reference.paired_read (whole.after_single (by decide))
    obtain ⟨value, rest⟩ := ih [] later
    rw [read, if_neg notEnds, if_pos rfl]
    dsimp only
    rw [Nat.add_assoc, Nat.add_comm 1, List.drop_succ_cons, ← List.drop_drop]
    exact ⟨before.append (stands.append value), rest⟩
  | case4 unit text notEnds notAmpersand ih =>
    intro front paired
    rw [List.append_cons] at paired
    obtain ⟨value, rest⟩ := ih (front ++ [unit]) paired
    rw [read_literal (by simpa using notEnds) notAmpersand, Nat.add_comm, List.drop_succ_cons,
      List.append_cons]
    exact ⟨value, rest⟩

theorem paired_read {ends : Text → Bool} (foresees : Foresees ends) {text : Text}
    (paired : Paired text) :
    Paired (read ends text).1 ∧ Paired (text.drop (read ends text).2) :=
  paired_append_read foresees text [] paired

theorem ended_drop_read {ends : Text → Bool} (foresees : Foresees ends) (text : Text) :
    Ended ends (text.drop (read ends text).2) := by
  obtain ⟨taken, rest, rfl, count, ended, _⟩ := read_lookahead foresees text
  rw [count, List.drop_left]
  exact ended

end CharacterData

namespace Markup

open Grammar (isQuote)

/-! ## Tags -/

theorem paired_readQuotedValue {quote : CodeUnit} {cursor after : Cursor} {value more : Text}
    (quotes : isQuote quote = true) (shows : cursor.rest = quote :: more)
    (paired : Paired cursor.rest) (success : readQuotedValue quote cursor = .ok (value, after)) :
    Paired value ∧ Paired after.rest := by
  have foresees := CharacterData.foresees_endsQuoted quotes
  have outside : CodeUnit.isSurrogate quote = false := by
    rcases CharacterData.isQuote_cases quotes with rfl | rfl <;> decide
  have inside := Cursor.paired_advance_one shows outside paired
  have ended : CharacterData.Ended _ ((cursor.advance 1).advance _).rest :=
    CharacterData.ended_drop_read foresees (cursor.advance 1).rest
  obtain ⟨pairedValue, rest⟩ := CharacterData.paired_read foresees inside
  simp only [readQuotedValue] at success
  split at success
  · cases success
  · rename_i last others closing
    cases success
    rw [closing] at ended
    have isClosing : last = quote := by
      rcases ended with nothing | ended
      · cases nothing
      · exact beq_iff_eq.mp ended
    subst isClosing
    exact ⟨pairedValue, Cursor.paired_advance_one closing outside rest⟩

theorem paired_readBareValue {cursor after : Cursor} {value : Text} (paired : Paired cursor.rest)
    (success : readBareValue cursor = .ok (value, after)) : Paired value ∧ Paired after.rest := by
  simp only [readBareValue] at success
  split at success
  · cases success
  · cases success
    exact CharacterData.paired_read CharacterData.foresees_endsBare paired

theorem paired_readValue {cursor after : Cursor} {value : Text} (paired : Paired cursor.rest)
    (success : readValue cursor = .ok (value, after)) : Paired value ∧ Paired after.rest := by
  unfold readValue at success
  split at success
  · rename_i shows
    exact paired_readQuotedValue rfl shows paired success
  · rename_i shows
    exact paired_readQuotedValue rfl shows paired success
  · exact paired_readBareValue paired success

theorem paired_readAttribute {cursor after : Cursor} {pair : Attribute}
    (paired : Paired cursor.rest) (success : readAttribute cursor = .ok (pair, after)) :
    pair.Paired ∧ Paired after.rest := by
  obtain ⟨name, afterName⟩ := Cursor.paired_span CodeUnit.takesLow_isAttributeNameUnit paired
  have toEquals := Cursor.paired_skipWhitespace afterName
  simp only [readAttribute] at success
  split at success
  · rename_i shows
    obtain ⟨⟨value, finish⟩, valued, whole⟩ := ok_of_bind_ok success
    cases whole
    have pastEquals := Cursor.paired_advance_one shows (by decide) toEquals
    obtain ⟨pairedValue, rest⟩ :=
      paired_readValue (Cursor.paired_skipWhitespace pastEquals) valued
    exact ⟨⟨name, pairedValue⟩, rest⟩
  · cases success
    exact ⟨⟨name, .nil⟩, toEquals⟩

theorem paired_readAttributes {tag : Text} {cursor after : Cursor}
    {found : List Attribute × TagEnd} (paired : Paired cursor.rest)
    (success : readAttributes tag cursor = .ok (found, after)) :
    (∀ pair ∈ found.1, pair.Paired) ∧ Paired after.rest := by
  have skipped := Cursor.paired_skipWhitespace paired
  fun_induction readAttributes tag cursor generalizing found with
  | case1 cursor rest shows =>
    cases success
    have last : (cursor.skipWhitespace.advance 2).rest = rest := by simp [Cursor.advance, shows]
    rw [shows] at skipped
    rw [last]
    exact ⟨List.forall_mem_nil _, (skipped.after_single (by decide)).after_single (by decide)⟩
  | case2 cursor rest shows =>
    cases success
    exact ⟨List.forall_mem_nil _, Cursor.paired_advance_one shows (by decide) skipped⟩
  | case3 => cases success
  | case4 cursor unit rest _ _ shows first entry next read ih =>
    obtain ⟨⟨⟨others, tagEnd⟩, finish⟩, more, whole⟩ := ok_of_bind_ok success
    cases whole
    obtain ⟨pairedEntry, afterEntry⟩ := paired_readAttribute skipped read
    obtain ⟨pairedOthers, rest⟩ :=
      ih afterEntry more (Cursor.paired_skipWhitespace afterEntry)
    exact ⟨List.forall_mem_cons.mpr ⟨pairedEntry, pairedOthers⟩, rest⟩
  | case5 => cases success
  | case6 => cases success

/-- Everything in a start tag is paired, and so is what follows it. -/
theorem paired_readStartTag {cursor after : Cursor} {startTag : StartTag} {more : Text}
    (shows : cursor.rest = 0x3C :: more) (paired : Paired cursor.rest)
    (success : readStartTag cursor = .ok (startTag, after)) :
    Paired startTag.tag ∧ (∀ pair ∈ startTag.attributes, pair.Paired) ∧ Paired after.rest := by
  have inside := Cursor.paired_advance_one shows (by decide) paired
  obtain ⟨name, afterName⟩ := Cursor.paired_span CodeUnit.takesLow_isNameUnit inside
  obtain ⟨⟨⟨attributes, tagEnd⟩, finish⟩, read, whole⟩ := ok_of_bind_ok success
  cases whole
  obtain ⟨pairs, rest⟩ := paired_readAttributes afterName read
  exact ⟨name, pairs, rest⟩

end Markup
end HtmlFragments
