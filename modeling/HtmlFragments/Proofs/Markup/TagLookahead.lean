import HtmlFragments.Proofs.Markup.DataLookahead
import HtmlFragments.Proofs.Markup.TagReading

/-! # What follows a tag

A start tag that was read is read again before any other text, and so is each of its parts before a
text that begins alike. Where reading a start tag fails, the tag can be completed from there. -/
set_option autoImplicit false

namespace HtmlFragments.Markup

open Grammar
open CharacterData (Ended Foresees endsBare endsQuoted)
open Text (Stops AllOf Blank)

/-- The parts of a tag that stand before the one text can also stand before the other one. -/
inductive Fits : Text → Text → Prop where
  | selfClosing {rest next : Text} : Fits rest (0x2F :: 0x3E :: next)
  | alike {unit : CodeUnit} {more others : Text} :
      unit ≠ 0x2F → Fits (unit :: more) (unit :: others)

theorem Fits.stops {belongs : CodeUnit → Bool} {rest other : Text} (fits : Fits rest other)
    (noSlash : belongs 0x2F = false) (stops : Stops belongs rest) : Stops belongs other := by
  cases fits with
  | selfClosing => exact noSlash
  | alike _ => exact stops

theorem Fits.head?_ne {mark : CodeUnit} {rest other : Text} (fits : Fits rest other)
    (notSlash : mark ≠ 0x2F) (absent : rest.head? ≠ some mark) : other.head? ≠ some mark := by
  cases fits with
  | selfClosing => exact fun same => notSlash (Option.some.inj same).symm
  | alike _ => exact absent

theorem Fits.ended {rest other : Text} (fits : Fits rest other) (ended : Ended endsBare rest) :
    Ended endsBare other := by
  cases fits with
  | selfClosing => exact .inr rfl
  | @alike unit more others notSlash =>
    rcases ended with nothing | ends
    · cases nothing
    · by_cases close : unit = 0x3E
      · rw [close]
        exact .inr rfl
      · rw [CharacterData.endsBare_of_ne close notSlash] at ends
        exact .inr (by rw [CharacterData.endsBare_of_ne close notSlash, ends])

/-! ## Values -/

theorem readQuotedValue_lookahead {quote : CodeUnit} (quotes : isQuote quote = true)
    {before text value : Text} {after : Cursor}
    (success : readQuotedValue quote (.between before (quote :: text)) = .ok (value, after)) :
    ∃ inside rest, text = inside ++ quote :: rest ∧
      after = .between (before ++ quote :: (inside ++ [quote])) rest ∧
      ∀ other, readQuotedValue quote (.between before (quote :: (inside ++ quote :: other))) =
        .ok (value, .between (before ++ quote :: (inside ++ [quote])) other) := by
  obtain ⟨inside, tail, rfl, count, ended, reads⟩ :=
    CharacterData.read_lookahead (CharacterData.foresees_endsQuoted quotes) text
  have opening : ∀ more, (Cursor.between before (quote :: more)).advance 1 =
      .between (before ++ [quote]) more := fun more =>
    Cursor.advance_between before [quote] more 1 rfl
  have toQuote : ∀ more, (Cursor.between (before ++ [quote]) (inside ++ more)).advance
      inside.length = .between (before ++ [quote] ++ inside) more := fun more =>
    Cursor.advance_between _ inside more _ rfl
  have closing : ∀ more, (Cursor.between (before ++ [quote] ++ inside) (quote :: more)).advance 1 =
      .between (before ++ quote :: (inside ++ [quote])) more := by
    intro more
    have moved := Cursor.advance_between (before ++ [quote] ++ inside) [quote] more 1 rfl
    simpa using moved
  simp only [readQuotedValue, opening, Cursor.between_rest, count, toQuote] at success
  cases tail with
  | nil => cases success
  | cons unit rest =>
    have isQuoted : unit = quote := by
      rcases ended with nothing | ends
      · cases nothing
      · exact beq_iff_eq.mp ends
    subst isQuoted
    rw [closing] at success
    cases success
    refine ⟨inside, rest, rfl, rfl, ?_⟩
    intro other
    have same := reads (unit :: other) (.inr (beq_self_eq_true unit))
      (CharacterData.continues_endsQuoted unit _ _)
    simp only [readQuotedValue, opening, Cursor.between_rest, same, count, toQuote, closing]

theorem readBareValue_lookahead {before text value : Text} {unit : CodeUnit} {after : Cursor}
    (noQuote : isQuote unit = false)
    (success : readBareValue (.between before (unit :: text)) = .ok (value, after)) :
    ∃ taken rest, unit :: text = taken ++ rest ∧ taken.head? = some unit ∧
      after = .between (before ++ taken) rest ∧
      Cursor.Takes readValue before taken value (Fits rest) := by
  simp only [readBareValue, Cursor.between_rest, List.isEmpty_cons, Bool.false_or] at success
  split at success
  · cases success
  · rename_i notEnds
    have going : endsBare (unit :: text) = false := by simpa using notEnds
    obtain ⟨taken, rest, whole, count, ended, reads⟩ :=
      CharacterData.read_lookahead CharacterData.foresees_endsBare (unit :: text)
    have moves := CharacterData.read_count_pos endsBare unit text going
    cases taken with
    | nil => rw [count] at moves; cases moves
    | cons first word =>
      have begins : first = unit := (List.cons.inj whole).1.symm
      subst begins
      rw [whole] at reads success count going
      rw [count, Cursor.advance_between before _ rest _ rfl] at success
      have valued := congrArg Prod.fst (Except.ok.inj success)
      refine ⟨first :: word, rest, whole, rfl, (congrArg Prod.snd (Except.ok.inj success)).symm, ?_⟩
      intro other fits
      have continues : CharacterData.Continues CharacterData.endsBare rest other :=
        CharacterData.continues_endsBare fun close => Decidable.byContradiction fun remains =>
          fits.head?_ne (by decide) remains close
      have otherGoing := CharacterData.foresees_endsBare.continues_append continues going
      have same := reads other (fits.ended ended) continues
      have finish := Cursor.advance_between before (first :: word) other _ rfl
      rw [List.cons_append] at same finish ⊢
      rw [readValue_bare before noQuote otherGoing, same, count, finish, valued]

theorem readValue_lookahead {before text value : Text} {after : Cursor}
    (success : readValue (.between before text) = .ok (value, after)) :
    ∃ taken rest, text = taken ++ rest ∧ taken ≠ [] ∧ after = .between (before ++ taken) rest ∧
      Cursor.Takes readValue before taken value (Fits rest) := by
  cases text with
  | nil => cases success
  | cons unit more =>
    by_cases quotes : isQuote unit = true
    · rw [readValue_quoted before quotes] at success
      obtain ⟨inside, rest, rfl, finish, reads⟩ := readQuotedValue_lookahead quotes success
      refine ⟨unit :: (inside ++ [unit]), rest, by simp, List.cons_ne_nil _ _, finish, ?_⟩
      intro other _
      have split : unit :: (inside ++ [unit]) ++ other = unit :: (inside ++ unit :: other) := by
        simp
      rw [split, readValue_quoted before quotes, reads other]
    · have noQuote : isQuote unit = false := by simpa using quotes
      have isBare : readValue (.between before (unit :: more)) =
          readBareValue (.between before (unit :: more)) := by
        unfold readValue
        split
        · rename_i same
          cases same
          exact absurd rfl quotes
        · rename_i same
          cases same
          exact absurd rfl quotes
        · rfl
      rw [isBare] at success
      obtain ⟨taken, rest, whole, begins, finish, reads⟩ := readBareValue_lookahead noQuote success
      refine ⟨taken, rest, whole, ?_, finish, reads⟩
      rintro rfl
      cases begins

/-! ## Attributes -/

theorem readAttribute_unvalued (before : Text) {name spaces rest : Text}
    (isName : IsAttributeName name) (blank : Blank spaces)
    (stops : Stops CodeUnit.isAttributeNameUnit (spaces ++ rest))
    (reached : Stops CodeUnit.isWhitespace rest) (noEquals : rest.head? ≠ some 0x3D) :
    readAttribute (.between before (name ++ (spaces ++ rest))) =
      .ok (⟨name, []⟩, .between (before ++ (name ++ spaces)) rest) := by
  simp only [readAttribute, readAttribute_span before isName stops,
    Cursor.skipWhitespace_between (before ++ name) spaces rest blank reached, Cursor.between_rest,
    List.append_assoc]
  split
  · exact absurd rfl noEquals
  · rfl

theorem attribute_begins {unit : CodeUnit} {text : Text}
    (first : CodeUnit.isAttributeNameUnit unit = true) (begins : text.head? = some unit) :
    ∃ name spaces rest, text = name ++ (spaces ++ rest) ∧ name.head? = some unit ∧
      IsAttributeName name ∧ Blank spaces ∧ Stops CodeUnit.isAttributeNameUnit (spaces ++ rest) ∧
      Stops CodeUnit.isWhitespace rest := by
  obtain ⟨name, tail, rfl, inside, stops⟩ := Text.exists_run CodeUnit.isAttributeNameUnit text
  obtain ⟨spaces, rest, rfl, blank, reached⟩ := Text.exists_run CodeUnit.isWhitespace tail
  cases name with
  | nil =>
    obtain ⟨more, whole⟩ := List.head?_eq_some_iff.mp begins
    rw [List.nil_append] at whole
    rw [whole] at stops
    have outside : CodeUnit.isAttributeNameUnit unit = false := stops
    rw [first] at outside
    cases outside
  | cons letter others =>
    exact ⟨letter :: others, spaces, rest, rfl, begins, ⟨List.cons_ne_nil _ _, inside⟩, blank,
      stops, reached⟩

theorem head?_append_of_head? {word : Text} {unit : CodeUnit} (begins : word.head? = some unit)
    (rest : Text) : (word ++ rest).head? = some unit := by
  obtain ⟨more, rfl⟩ := List.head?_eq_some_iff.mp begins
  rfl

theorem readAttribute_lookahead {before text : Text} {unit : CodeUnit} {entry : Attribute}
    {after : Cursor} (first : CodeUnit.isAttributeNameUnit unit = true)
    (begins : text.head? = some unit)
    (success : readAttribute (.between before text) = .ok (entry, after)) :
    ∃ taken rest, text = taken ++ rest ∧ taken.head? = some unit ∧
      after = .between (before ++ taken) rest ∧ IsAttributeName entry.name ∧
      Cursor.Takes readAttribute before taken entry (Fits rest) := by
  obtain ⟨name, spaces, rest, rfl, front, isName, blank, stops, reached⟩ :=
    attribute_begins first begins
  by_cases equals : rest.head? = some 0x3D
  · obtain ⟨tail, rfl⟩ := List.head?_eq_some_iff.mp equals
    obtain ⟨gap, value, rfl, blankGap, stopsValue⟩ := Text.exists_run CodeUnit.isWhitespace tail
    rw [readAttribute_valued before isName blank blankGap stopsValue] at success
    obtain ⟨⟨found, finish⟩, valued, whole⟩ := ok_of_bind_ok success
    cases whole
    obtain ⟨taken, rest, rfl, filled, rfl, reads⟩ := readValue_lookahead valued
    refine ⟨name ++ (spaces ++ 0x3D :: (gap ++ taken)), rest, by simp,
      head?_append_of_head? front _, by simp, isName, ?_⟩
    intro other fits
    have stopsOther : Stops CodeUnit.isWhitespace (taken ++ other) := by
      obtain ⟨next, more, rfl⟩ := List.exists_cons_of_ne_nil filled
      exact stopsValue.congr rfl
    have same := (readAttribute_valued before isName blank blankGap stopsOther).trans
      (bind_eq_of_ok (reads other fits))
    simp only [List.append_assoc, List.cons_append] at same ⊢
    exact same
  · rw [readAttribute_unvalued before isName blank stops reached equals] at success
    cases success
    refine ⟨name ++ spaces, rest, by simp, head?_append_of_head? front _, rfl, isName, ?_⟩
    intro other fits
    have stopsOther := stops.append (fits.stops (by decide))
    rw [List.append_assoc, readAttribute_unvalued before isName blank stopsOther
      (fits.stops (by decide) reached) (fits.head?_ne (by decide) equals)]

/-! ## Rows of attributes -/

theorem tagEnd_or_not (rest : Text) :
    (∃ tagEnd next, rest = tagEndText tagEnd ++ next) ∨
      rest.head? ≠ some 0x3E ∧ ∀ next, rest ≠ 0x2F :: 0x3E :: next := by
  by_cases close : rest.head? = some 0x3E
  · obtain ⟨next, rfl⟩ := List.head?_eq_some_iff.mp close
    exact .inl ⟨.plain, next, rfl⟩
  · by_cases selfClosing : ∃ next, rest = 0x2F :: 0x3E :: next
    · obtain ⟨next, rfl⟩ := selfClosing
      exact .inl ⟨.selfClosing, next, rfl⟩
    · exact .inr ⟨close, fun next same => selfClosing ⟨next, same⟩⟩

theorem readAttributes_failing {tag before rest : Text} {cursor : Cursor}
    (place : cursor.skipWhitespace = .between before rest) (noClose : rest.head? ≠ some 0x3E)
    (noSelfClosing : ∀ next, rest ≠ 0x2F :: 0x3E :: next)
    (noName : Stops CodeUnit.isAttributeNameUnit rest) :
    readAttributes tag cursor = .error ⟨.attributeNameOrTagEnd tag, before.length⟩ := by
  rw [readAttributes]
  split <;> rename_i shows <;> rw [place, Cursor.between_rest] at shows
  · exact absurd shows (noSelfClosing _)
  · rw [shows] at noClose
    exact absurd rfl noClose
  · rw [shows] at noName
    have outside : CodeUnit.isAttributeNameUnit _ = false := noName
    rw [dif_neg (by rw [outside]; decide), place]
    rfl
  · rw [place]
    rfl

theorem readAttributes_end (tag before : Text) {spaces : Text} (blank : Blank spaces)
    (tagEnd : TagEnd) (next : Text) :
    readAttributes tag (.between before (spaces ++ (tagEndText tagEnd ++ next))) =
      .ok (([], tagEnd), .between (before ++ (spaces ++ tagEndText tagEnd)) next) := by
  have place : (Cursor.between before (spaces ++ (tagEndText tagEnd ++ next))).skipWhitespace =
      .between (before ++ spaces) (tagEndText tagEnd ++ next) := skipWhitespace_tagEnd before blank
  rw [readAttributes_tagEnd next (by rw [place]; rfl), place, Cursor.advance_between _ _ next _ rfl,
    List.append_assoc]

theorem Fits.append {spaces rest other : Text} (blank : Blank spaces) (fits : Fits rest other) :
    Fits (spaces ++ rest) (spaces ++ other) := by
  cases spaces with
  | nil => exact fits
  | cons space others =>
    refine .alike ?_
    rintro rfl
    exact absurd (blank 0x2F List.mem_cons_self) (by decide)

theorem fits_tagEndText (tagEnd : TagEnd) (rest other : Text) :
    Fits (tagEndText tagEnd ++ rest) (tagEndText tagEnd ++ other) := by
  cases tagEnd with
  | plain => exact .alike (by decide)
  | selfClosing => exact .selfClosing

structure GoesOn (tag spaces : Text) (unit : CodeUnit) : Prop where
  blank : Blank spaces
  named : CodeUnit.isAttributeNameUnit unit = true
  reads : ∀ before other, other.head? = some unit →
    readAttributes tag (.between before (spaces ++ other)) =
      (do
        let (entry, after) ← readAttribute (.between (before ++ spaces) other)
        let ((others, tagEnd), finish) ← readAttributes tag after
        return ((entry :: others, tagEnd), finish))

theorem GoesOn.fits {tag spaces word : Text} {unit : CodeUnit} (goesOn : GoesOn tag spaces unit)
    (front : word.head? = some unit) (rest other : Text) :
    Fits (spaces ++ (word ++ rest)) (spaces ++ (word ++ other)) := by
  obtain ⟨more, rfl⟩ := List.head?_eq_some_iff.mp front
  refine Fits.append goesOn.blank (.alike ?_)
  rintro rfl
  exact absurd goesOn.named (by decide)

theorem GoesOn.takes {tag spaces before word taken other : Text} {unit : CodeUnit}
    {entry : Attribute} {others : List Attribute} {tagEnd : TagEnd}
    (goesOn : GoesOn tag spaces unit) (front : word.head? = some unit)
    (pair : readAttribute (.between (before ++ spaces) (word ++ (taken ++ other))) =
      .ok (entry, .between (before ++ spaces ++ word) (taken ++ other)))
    (row : readAttributes tag (.between (before ++ spaces ++ word) (taken ++ other)) =
      .ok ((others, tagEnd), .between (before ++ spaces ++ word ++ taken) other)) :
    readAttributes tag (.between before (spaces ++ (word ++ taken) ++ other)) =
      .ok ((entry :: others, tagEnd), .between (before ++ (spaces ++ (word ++ taken))) other) := by
  have begins : (word ++ (taken ++ other)).head? = some unit := head?_append_of_head? front _
  simp only [List.append_assoc] at pair row ⊢
  rw [goesOn.reads before _ begins, bind_eq_of_ok pair]
  show readAttributes tag _ >>= _ = _
  rw [bind_eq_of_ok row]
  rfl

/-- What a row of attributes does at its first unit that is no whitespace. -/
theorem readAttributes_cases (tag text : Text) :
    ∃ spaces rest, text = spaces ++ rest ∧ Blank spaces ∧
      ((∃ tagEnd next, rest = tagEndText tagEnd ++ next) ∨
      (∃ unit, rest.head? = some unit ∧ GoesOn tag spaces unit) ∨
      ∀ before, readAttributes tag (.between before (spaces ++ rest)) =
        .error ⟨.attributeNameOrTagEnd tag, (before ++ spaces).length⟩) := by
  obtain ⟨spaces, rest, rfl, blank, stops⟩ := Text.exists_run CodeUnit.isWhitespace text
  have skips : ∀ before other, Stops CodeUnit.isWhitespace other →
      (Cursor.between before (spaces ++ other)).skipWhitespace =
        .between (before ++ spaces) other :=
    fun before other reached => Cursor.skipWhitespace_between before spaces other blank reached
  refine ⟨spaces, rest, rfl, blank, ?_⟩
  rcases tagEnd_or_not rest with ⟨tagEnd, next, rfl⟩ | ⟨noClose, noSelfClosing⟩
  · exact .inl ⟨tagEnd, next, rfl⟩
  · rcases Text.begins_or_stops CodeUnit.isAttributeNameUnit rest with
      ⟨unit, more, rfl, first⟩ | noName
    · refine .inr (.inl ⟨unit, rfl, blank, first, ?_⟩)
      intro before other begins
      obtain ⟨others, rfl⟩ := List.head?_eq_some_iff.mp begins
      have place := skips before (unit :: others) (not_isWhitespace_of_isAttributeNameUnit first)
      rw [readAttributes_pair (by rw [place]; rfl) first, place]
    · exact .inr (.inr fun before =>
        readAttributes_failing (skips before rest stops) noClose noSelfClosing noName)

theorem readAttributes_lookahead {tag before text : Text} {found : List Attribute × TagEnd}
    {after : Cursor} (success : readAttributes tag (.between before text) = .ok (found, after)) :
    ∃ taken rest, text = taken ++ rest ∧ after = .between (before ++ taken) rest ∧
      (∀ pair ∈ found.1, IsAttributeName pair.name) ∧
      (∀ other, Fits (taken ++ rest) (taken ++ other)) ∧
      Cursor.Takes (readAttributes tag) before taken found fun _ => True := by
  induction size : text.length using Nat.strongRecOn generalizing before text found with
  | ind length ih =>
    obtain ⟨spaces, rest, rfl, blank, isTagEnd | isPair | fails⟩ := readAttributes_cases tag text
    · obtain ⟨tagEnd, next, rfl⟩ := isTagEnd
      rw [readAttributes_end tag before blank] at success
      cases success
      refine ⟨spaces ++ tagEndText tagEnd, next, by simp, rfl, nofun, ?_, ?_⟩
      · intro other
        rw [List.append_assoc, List.append_assoc]
        exact (fits_tagEndText tagEnd next other).append blank
      · intro other _
        rw [List.append_assoc, readAttributes_end tag before blank]
    · obtain ⟨unit, begins, goesOn⟩ := isPair
      rw [goesOn.reads before rest begins] at success
      obtain ⟨⟨entry, middle⟩, pair, more⟩ := ok_of_bind_ok success
      obtain ⟨⟨⟨others, tagEnd⟩, finish⟩, row, whole⟩ := ok_of_bind_ok more
      cases whole
      obtain ⟨word, tail, rfl, front, rfl, isName, readsWord⟩ :=
        readAttribute_lookahead goesOn.named begins pair
      have shorter : tail.length < length := size ▸ Text.length_lt_of_head? front spaces tail
      obtain ⟨taken, rest, rfl, rfl, names, fits, readsRow⟩ := ih tail.length shorter row rfl
      refine ⟨spaces ++ (word ++ taken), rest, by simp, by simp,
        List.forall_mem_cons.mpr ⟨isName, names⟩, ?_, ?_⟩
      · intro other
        simp only [List.append_assoc]
        exact goesOn.fits front _ _
      · intro other _
        exact goesOn.takes front (readsWord _ (fits other)) (readsRow other trivial)
    · rw [fails before] at success
      cases success

/-! ## Start tags -/

/-- A text that is read as a start tag whatever comes after it. -/
structure IsStartTag (before opening : Text) (startTag : StartTag) : Prop where
  begins : ∃ unit more, opening = 0x3C :: unit :: more ∧ CodeUnit.startsTagName unit = true
  tag : IsTagName startTag.tag
  names : ∀ pair ∈ startTag.attributes, IsAttributeName pair.name
  reads : Cursor.Takes readStartTag before opening startTag fun _ => True

theorem isStartTag_of_readStartTag {before text : Text} {unit : CodeUnit} {startTag : StartTag}
    {after : Cursor} (first : CodeUnit.startsTagName unit = true)
    (success : readStartTag (.between before (0x3C :: unit :: text)) = .ok (startTag, after)) :
    ∃ opening rest, 0x3C :: unit :: text = opening ++ rest ∧
      after = .between (before ++ opening) rest ∧ IsStartTag before opening startTag := by
  obtain ⟨letters, tail, rfl, inside, stops⟩ := Text.exists_run CodeUnit.isNameUnit text
  have isName : IsTagName (unit :: letters) := ⟨first, inside⟩
  have named := readStartTag_name before isName stops
  rw [List.cons_append] at named
  rw [named] at success
  obtain ⟨⟨⟨attributes, tagEnd⟩, finish⟩, row, whole⟩ := ok_of_bind_ok success
  cases whole
  obtain ⟨taken, rest, rfl, rfl, names, fits, reads⟩ := readAttributes_lookahead row
  refine ⟨0x3C :: unit :: (letters ++ taken), rest, by simp, by simp, ⟨_, _, rfl, first⟩, isName,
    names, ?_⟩
  intro other _
  have stopsOther : Stops CodeUnit.isNameUnit (taken ++ other) :=
    (fits other).stops (by decide) stops
  have same := (readStartTag_name before isName stopsOther).trans
    (bind_eq_of_ok (reads other trivial))
  simp only [List.append_assoc, List.cons_append] at same ⊢
  exact same

/-! ## Completing a start tag -/

theorem readValue_failure {cursor : Cursor} {failure : Failure Expectation}
    (failed : readValue cursor = .error failure) : failure.position = cursor.position := by
  have quoted : ∀ quote, readQuotedValue quote cursor = .error failure →
      failure.position = cursor.position := by
    intro quote failed
    simp only [readQuotedValue] at failed
    split at failed <;> cases failed
    rfl
  unfold readValue at failed
  split at failed
  · exact quoted _ failed
  · exact quoted _ failed
  · simp only [readBareValue] at failed
    split at failed <;> cases failed
    rfl

/-- In place of a value that cannot be read there can stand an `x`. -/
theorem readAttribute_completion {before text : Text} {unit : CodeUnit}
    {failure : Failure Expectation} (first : CodeUnit.isAttributeNameUnit unit = true)
    (begins : text.head? = some unit)
    (failed : readAttribute (.between before text) = .error failure) :
    ∃ taken rest entry, text = taken ++ rest ∧ taken.head? = some unit ∧
      failure.position = (before ++ taken).length ∧
      ∀ next, readAttribute (.between before (taken ++ [0x78] ++ 0x2F :: 0x3E :: next)) =
        .ok (entry, .between (before ++ (taken ++ [0x78])) (0x2F :: 0x3E :: next)) := by
  obtain ⟨name, spaces, rest, rfl, front, isName, blank, stops, reached⟩ :=
    attribute_begins first begins
  by_cases equals : rest.head? = some 0x3D
  · obtain ⟨tail, rfl⟩ := List.head?_eq_some_iff.mp equals
    obtain ⟨gap, value, rfl, blankGap, stopsValue⟩ := Text.exists_run CodeUnit.isWhitespace tail
    rw [readAttribute_valued before isName blank blankGap stopsValue] at failed
    have position : failure.position = (before ++ (name ++ (spaces ++ 0x3D :: gap))).length := by
      rcases error_of_bind_error failed with wrong | ⟨_, _, done⟩
      · exact readValue_failure wrong
      · cases done
    refine ⟨name ++ (spaces ++ 0x3D :: gap), value, ⟨name, [0x78]⟩, by simp,
      head?_append_of_head? front _, position, ?_⟩
    intro next
    have spelled : Value StartsNothing (0x2F :: 0x3E :: next) [0x78] [0x78] :=
      .bare (List.cons_ne_nil _ _) rfl (.literal rfl (fun same => absurd same (by decide)) .nil)
    have reads := (readAttribute_valued before isName blank blankGap (stops_value spelled)).trans
      (bind_eq_of_ok (readValue_between _ spelled (.inr rfl)))
    simp only [List.append_assoc, List.cons_append, List.nil_append] at reads ⊢
    exact reads
  · rw [readAttribute_unvalued before isName blank stops reached equals] at failed
    cases failed

def ClosesAt (tag before text : Text) (failure : Failure Expectation) : Prop :=
  ∃ taken rest ending pairs, text = taken ++ rest ∧
    failure.position = (before ++ taken).length ∧
    (∀ next, Fits text (taken ++ (ending ++ next))) ∧
    Cursor.Takes (readAttributes tag) before (taken ++ ending) (pairs, .selfClosing) fun _ => True

theorem GoesOn.closesAt_pair {tag spaces before text : Text} {unit : CodeUnit}
    {failure : Failure Expectation} (goesOn : GoesOn tag spaces unit)
    (begins : text.head? = some unit)
    (failed : readAttribute (.between (before ++ spaces) text) = .error failure) :
    ClosesAt tag before (spaces ++ text) failure := by
  obtain ⟨taken, value, entry, rfl, front, position, completes⟩ :=
    readAttribute_completion goesOn.named begins failed
  refine ⟨spaces ++ taken, value, [0x78, 0x2F, 0x3E], [entry], by simp, by simp [position], ?_, ?_⟩
  · intro next
    rw [List.append_assoc]
    exact goesOn.fits front _ _
  · intro other _
    have readsPair : readAttribute (.between (before ++ spaces)
        (taken ++ [0x78] ++ ([0x2F, 0x3E] ++ other))) = _ := completes other
    have ends : readAttributes tag (.between (before ++ spaces ++ (taken ++ [0x78]))
        ([0x2F, 0x3E] ++ other)) = _ :=
      readAttributes_end tag _ (Text.allOf_nil _) .selfClosing other
    have closed := goesOn.takes (head?_append_of_head? front [0x78]) readsPair ends
    simpa using closed

theorem GoesOn.closesAt_row {tag spaces before word tail : Text} {unit : CodeUnit}
    {entry : Attribute} {failure : Failure Expectation} (goesOn : GoesOn tag spaces unit)
    (front : word.head? = some unit)
    (pair : Cursor.Takes readAttribute (before ++ spaces) word entry (Fits tail))
    (row : ClosesAt tag (before ++ spaces ++ word) tail failure) :
    ClosesAt tag before (spaces ++ (word ++ tail)) failure := by
  obtain ⟨taken, rest, ending, pairs, rfl, position, fits, completes⟩ := row
  refine ⟨spaces ++ (word ++ taken), rest, ending, entry :: pairs, by simp, by simp [position],
    ?_, ?_⟩
  · intro next
    simp only [List.append_assoc]
    exact goesOn.fits front _ _
  · intro other _
    have readsPair := pair (taken ++ ending ++ other) (by simpa using fits other)
    have closed := goesOn.takes front readsPair (completes other trivial)
    simpa using closed

theorem readAttributes_completion {tag before text : Text} {failure : Failure Expectation}
    (failed : readAttributes tag (.between before text) = .error failure) :
    ClosesAt tag before text failure := by
  induction size : text.length using Nat.strongRecOn generalizing before text with
  | ind length ih =>
    obtain ⟨spaces, rest, rfl, blank, isTagEnd | isPair | fails⟩ := readAttributes_cases tag text
    · obtain ⟨tagEnd, next, rfl⟩ := isTagEnd
      rw [readAttributes_end tag before blank] at failed
      cases failed
    · obtain ⟨unit, begins, goesOn⟩ := isPair
      rw [goesOn.reads before rest begins] at failed
      rcases error_of_bind_error failed with pair | ⟨⟨entry, middle⟩, pair, later⟩
      · exact goesOn.closesAt_pair begins pair
      · obtain ⟨word, tail, rfl, front, rfl, -, takes⟩ :=
          readAttribute_lookahead goesOn.named begins pair
        have shorter : tail.length < length := size ▸ Text.length_lt_of_head? front spaces tail
        rcases error_of_bind_error later with row | ⟨_, _, done⟩
        · exact goesOn.closesAt_row front takes (ih tail.length shorter row rfl)
        · cases done
    · rw [fails before] at failed
      cases failed
      refine ⟨spaces, rest, [0x2F, 0x3E], [], rfl, rfl, ?_, ?_⟩
      · intro next
        exact Fits.selfClosing.append blank
      · intro other _
        rw [List.append_assoc]
        exact readAttributes_end tag before blank .selfClosing other

/-- A start tag that cannot be read up to its end can be closed at the place of the failure. -/
theorem readStartTag_completion {before text : Text} {unit : CodeUnit}
    {failure : Failure Expectation} (first : CodeUnit.startsTagName unit = true)
    (failed : readStartTag (.between before (0x3C :: unit :: text)) = .error failure) :
    ∃ taken rest ending startTag, text = taken ++ rest ∧
      failure.position = (before ++ 0x3C :: unit :: taken).length ∧
      startTag.tagEnd = .selfClosing ∧
      IsStartTag before (0x3C :: unit :: (taken ++ ending)) startTag := by
  obtain ⟨letters, tail, rfl, inside, stops⟩ := Text.exists_run CodeUnit.isNameUnit text
  have isName : IsTagName (unit :: letters) := ⟨first, inside⟩
  have named := readStartTag_name before isName stops
  rw [List.cons_append] at named
  rw [named] at failed
  rcases error_of_bind_error failed with row | ⟨_, _, done⟩
  · obtain ⟨taken, rest, ending, pairs, rfl, position, fits, completes⟩ :=
      readAttributes_completion row
    have stopsEnding : Stops CodeUnit.isNameUnit (taken ++ ending) := by
      have fitsEnding : Stops CodeUnit.isNameUnit (taken ++ (ending ++ [])) :=
        (fits []).stops (by decide) stops
      rwa [List.append_nil] at fitsEnding
    have reads := completes [] trivial
    rw [List.append_nil] at reads
    have completed := (readStartTag_name before isName stopsEnding).trans (bind_eq_of_ok reads)
    obtain ⟨opening, more, whole, finish, isStartTag⟩ := isStartTag_of_readStartTag first completed
    have nothing : more = [] := (congrArg Cursor.rest finish).symm
    rw [nothing, List.append_nil] at whole
    refine ⟨letters ++ taken, rest, ending, ⟨unit :: letters, pairs, .selfClosing⟩, by simp,
      by simp [position], rfl, ?_⟩
    rw [← whole] at isStartTag
    rw [List.append_assoc]
    exact isStartTag
  · cases done

end HtmlFragments.Markup
