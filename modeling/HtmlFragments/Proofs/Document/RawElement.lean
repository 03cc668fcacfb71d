import HtmlFragments.Proofs.Document.RoundTrip
import HtmlFragments.Proofs.Markup.Movement

/-! # A raw text element behind a text

The end tag of a raw text element is looked up in the lower case of the whole source, and the
distance found there is used in the source. A dotted capital I is two units long in lower case, so
that behind one the end tag is read from a place inside it or after it. Main result: a text and a
raw text element behind it are read as they stand if neither holds a dotted capital I. Otherwise a
`</` is missed, as many units behind the beginning of the end tag as such units stand before it. -/
set_option autoImplicit false

namespace HtmlFragments

/-! ## Raw text tags -/

theorem CodeUnit.isLetter_of_asciiLower {unit : CodeUnit}
    (letter : isLetter (asciiLower unit) = true) : isLetter unit = true := by
  have lower := asciiLower_toNat unit
  simp only [isLetter, Bool.or_eq_true, Bool.and_eq_true, decide_eq_true_eq,
    UInt16.le_iff_toNat_le, UInt16.reduceToNat] at letter ⊢
  split at lower <;> omega

theorem rawTextTags_isLetter :
    ∀ tag ∈ rawTextTags, tag ≠ [] ∧ tag.all CodeUnit.isLetter = true := by
  decide +kernel

theorem rawTextTags_notVoid : ∀ tag ∈ rawTextTags, voidTags.contains tag = false := by
  decide +kernel

namespace Markup

open Grammar

section

variable {tag : Text} (raw : tag.map CodeUnit.asciiLower ∈ rawTextTags)

include raw

theorem isLetter_of_raw : tag ≠ [] ∧ ∀ unit ∈ tag, CodeUnit.isLetter unit = true := by
  obtain ⟨filled, letters⟩ := rawTextTags_isLetter _ raw
  refine ⟨fun nothing => filled (by rw [nothing]; rfl), fun unit member => ?_⟩
  exact CodeUnit.isLetter_of_asciiLower
    (List.all_eq_true.mp letters _ (List.mem_map_of_mem member))

theorem isTagName_of_raw : IsTagName tag := by
  obtain ⟨filled, letters⟩ := isLetter_of_raw raw
  obtain ⟨first, more, rfl⟩ := List.exists_cons_of_ne_nil filled
  refine ⟨letters first List.mem_cons_self, fun unit member => ?_⟩
  simp [CodeUnit.isNameUnit, CodeUnit.isIdentifierUnit, letters unit (.tail _ member)]

theorem not_mem_tagEnd_of_raw {unit : CodeUnit} (noLetter : CodeUnit.isLetter unit = false)
    (notEnd : unit ≠ 0x3E) : unit ∉ tag ++ [0x3E] := by
  intro member
  rcases List.mem_append.mp member with inside | last
  · exact absurd ((isLetter_of_raw raw).2 _ inside) (by rw [noLetter]; decide)
  · exact notEnd (List.mem_singleton.mp last)

theorem not_mem_startTag_of_raw : CodeUnit.dottedCapital ∉ startTagMarkup tag [] := by
  have opened : startTagMarkup tag [] = 0x3C :: (tag ++ [0x3E]) := startTagMarkup_eq tag []
  rw [opened, List.mem_cons, not_or]
  exact ⟨by decide, not_mem_tagEnd_of_raw raw (by decide) (by decide)⟩

theorem kind_of_raw : isRawText tag = true ∧ isVoid tag = false := by
  have ascii : ∀ unit ∈ tag, unit < 0x80 := fun unit member =>
    CodeUnit.asciiLower_ascii (rawTextTags_ascii raw _ (List.mem_map_of_mem member)).1
  rw [isRawText, isVoid, Text.lowered_of_ascii ascii (Text.lowered_lowerCase tag)]
  exact ⟨List.contains_iff_mem.mpr raw, rawTextTags_notVoid _ raw⟩

theorem holdsEndTag_of_append {before value : Text} (noOpening : 0x3C ∉ before)
    (holds : HoldsEndTag tag (before ++ startTagMarkup tag [] ++ value)) :
    HoldsEndTag tag value := by
  obtain ⟨name, same, holds⟩ := holds
  refine ⟨name, same, ?_⟩
  have opened : startTagMarkup tag [] = 0x3C :: (tag ++ [0x3E]) := startTagMarkup_eq tag []
  rw [List.append_assoc, opened, List.cons_append] at holds
  rcases List.infix_cons_iff.mp (Text.infix_of_not_mem noOpening holds) with begins | later
  · obtain ⟨filled, letters⟩ := isLetter_of_raw raw
    obtain ⟨first, more, rfl⟩ := List.exists_cons_of_ne_nil filled
    have slash : 0x2F = first :=
      (List.cons_prefix_cons.mp (List.cons_prefix_cons.mp begins).2).1
    exact absurd (letters first List.mem_cons_self) (by rw [← slash]; decide)
  · exact Text.infix_of_not_mem (not_mem_tagEnd_of_raw raw (by decide) (by decide)) later

end

/-! ## The end tag that is missed -/

theorem readEndTag_of_head? (tag : Text) {cursor : Cursor}
    (noOpening : cursor.rest.head? ≠ some 0x3C) :
    readEndTag tag cursor = .error ⟨.endTagOpening, cursor.position⟩ := by
  unfold readEndTag
  split
  · rename_i shows
    rw [shows] at noOpening
    exact absurd rfl noOpening
  · rfl

/-- Behind its first unit no end tag begins inside an end tag. -/
theorem head?_drop_endTag {tag : Text} (raw : tag.map CodeUnit.asciiLower ∈ rawTextTags)
    {count : Nat} (moves : count ≠ 0) : ((endTagMarkup tag).drop count).head? ≠ some 0x3C := by
  obtain ⟨further, rfl⟩ := Nat.exists_eq_succ_of_ne_zero moves
  have closed : endTagMarkup tag = 0x3C :: 0x2F :: (tag ++ [0x3E]) := endTagMarkup_eq tag
  rw [closed, List.drop_succ_cons]
  intro same
  have member := List.mem_of_mem_drop (List.mem_of_head? same)
  rcases List.mem_cons.mp member with slash | inside
  · exact absurd slash (by decide)
  · exact not_mem_tagEnd_of_raw raw (by decide) (by decide) inside

/-- With a dotted capital I before it the end tag of raw text is looked for too late. -/
theorem readRawText_late {before tag value : Text}
    (raw : tag.map CodeUnit.asciiLower ∈ rawTextTags) (free : ¬HoldsEndTag tag (before ++ value))
    (dotted : (before ++ value).count CodeUnit.dottedCapital ≠ 0) :
    readRawText (before ++ (value ++ endTagMarkup tag)).lowerCase tag
        (.between before (value ++ endTagMarkup tag)) =
      .error ⟨.endTagOpening,
        before.length + (value.length + (before ++ value).count CodeUnit.dottedCapital)⟩ := by
  have index :=
    indexOf?_lowered [] (kind_of_raw raw).1 free (endTagText_markup (isTagName_of_raw raw))
  rw [List.append_nil] at index
  have late : ((Cursor.between before (value ++ endTagMarkup tag)).advance
      (value.length + (before ++ value).count CodeUnit.dottedCapital)).rest.head? ≠ some 0x3C := by
    simp only [Cursor.advance, Cursor.between_rest, List.drop_length_add_append]
    exact head?_drop_endTag raw dotted
  simp only [readRawText, Cursor.between_position, index]
  rw [readEndTag_of_head? tag late]
  rfl

theorem Progress.run_rawText_late {before tag value : Text} (progress : Progress)
    (raw : tag.map CodeUnit.asciiLower ∈ rawTextTags)
    (free : ¬HoldsEndTag tag (before ++ startTagMarkup tag [] ++ value))
    (dotted : (before ++ startTagMarkup tag [] ++ value).count CodeUnit.dottedCapital ≠ 0) :
    progress.run (before ++ startTagMarkup tag [] ++ (value ++ endTagMarkup tag)).lowerCase
        (.between before (startTagMarkup tag [] ++ (value ++ endTagMarkup tag))) =
      .error ⟨.endTagOpening, (before ++ startTagMarkup tag []).length + (value.length +
        (before ++ startTagMarkup tag [] ++ value).count CodeUnit.dottedCapital)⟩ := by
  have spelled := startTagText_markup StartsNothing (isTagName_of_raw raw)
    (List.forall_mem_nil _) (value ++ endTagMarkup tag)
  obtain ⟨isRaw, notVoid⟩ := kind_of_raw raw
  apply run_of_failure (ne_nil_of_endsText (endsText_startTagText spelled _))
  simp only [step, Cursor.between_rest, ofText_startTagText spelled, readOpening]
  rw [bind_eq_of_ok (readStartTag_between before spelled)]
  simp only [openElement, reduceCtorEq, notVoid, Bool.false_eq_true, or_self, if_false, isRaw,
    if_true]
  rw [readRawText_late raw free dotted]
  rfl

end Markup

/-! ## The document -/

namespace Document

open Markup Markup.Grammar

/-- A text that stands for itself at the start of a source. -/
structure IsPlain (text : Text) : Prop where
  filled : text ≠ []
  noOpening : 0x3C ∉ text
  noAmpersand : 0x26 ∉ text
  unmarked : text.head? ≠ some 0xFEFF

theorem data_of_plain {text : Text} (noOpening : 0x3C ∉ text) (noAmpersand : 0x26 ∉ text)
    (next : Text) : Data StartsNothing endsText next text text := by
  induction text with
  | nil => exact .nil
  | cons unit more ih =>
    obtain ⟨notOpening, openingLater⟩ := not_or.mp (mt List.mem_cons.mpr noOpening)
    obtain ⟨notAmpersand, ampersandLater⟩ := not_or.mp (mt List.mem_cons.mpr noAmpersand)
    exact .literal (CharacterData.endsText_of_ne (Ne.symm notOpening) _)
      (fun same => absurd same.symm notAmpersand) (ih openingLater ampersandLater)

section

variable {before tag value : Text} (plain : IsPlain before)
  (raw : tag.map CodeUnit.asciiLower ∈ rawTextTags)

include plain

theorem IsPlain.head?_append (rest : Text) : (before ++ rest).head? ≠ some 0xFEFF := by
  obtain ⟨first, more, rfl⟩ := List.exists_cons_of_ne_nil plain.filled
  exact plain.unmarked

theorem readNodes_plain {rest : Text} (ended : CharacterData.Ended endsText rest) :
    readNodes (before ++ rest) = (Progress.start.add (.text before)).run
      (before ++ rest).lowerCase (.between before rest) := by
  have data := data_of_plain plain.noOpening plain.noAmpersand rest
  rw [readNodes, contentStart_unmarked (plain.head?_append rest),
    Progress.run_text _ [] Progress.start plain.filled data ended, List.nil_append]

include raw

theorem spells_rawElement {found : Text → Text → Text → Prop} (filled : value ≠ [])
    (free : ¬HoldsEndTag tag value) (finds : found (before ++ startTagMarkup tag []) tag value) :
    Spells StartsNothing found [.text before, .element tag [] [.text value]]
      (before ++ (startTagMarkup tag [] ++ (value ++ endTagMarkup tag))) := by
  obtain ⟨isRaw, notVoid⟩ := kind_of_raw raw
  have isName := isTagName_of_raw raw
  have children : textNodes value = [.text value] := by simp [textNodes, filled]
  have element : Content StartsNothing found true before [.element tag [] (textNodes value)]
      (startTagMarkup tag [] ++ (value ++ (endTagMarkup tag ++ []))) [] :=
    .rawText (startTagText_markup StartsNothing isName (List.forall_mem_nil _) _) notVoid isRaw
      free (endTagText_markup isName) finds .nil
  rw [children, List.append_nil] at element
  exact .unmarked (plain.head?_append _)
    (.text plain.filled (data_of_plain plain.noOpening plain.noAmpersand _) element)

/-- Main result: a text and a raw text element behind it are read as they stand if neither holds a
dotted capital I. Otherwise a `</` is missed, as many units behind the beginning of the end tag as
they hold such units. -/
theorem parse_rawElement (filled : value ≠ []) (free : ¬HoldsEndTag tag value) :
    let opening := before ++ startTagMarkup tag []
    let source := opening ++ (value ++ endTagMarkup tag)
    let shift := (before ++ value).count CodeUnit.dottedCapital
    parse source =
      if shift = 0 then .ok ⟨[.text before, .element tag [] [.text value]]⟩
      else .error (ParseError.ofPosition source (opening.length + (value.length + shift))
        Expectation.endTagOpening.text) := by
  intro opening source shift
  have isName := isTagName_of_raw raw
  have behind : source = before ++ (startTagMarkup tag [] ++ (value ++ endTagMarkup tag)) :=
    List.append_assoc _ _ _
  have freeBefore : ¬HoldsEndTag tag (opening ++ value) := fun holds =>
    free (holdsEndTag_of_append raw plain.noOpening holds)
  have count : (opening ++ value).count CodeUnit.dottedCapital = shift := by
    have undottedTag := List.count_eq_zero.mpr (not_mem_startTag_of_raw raw)
    simp only [opening, shift, List.count_append, undottedTag, Nat.add_zero]
  by_cases undotted : shift = 0
  · have found : FoundAfter source opening tag value := by
      have index := indexOf?_lowered [] (kind_of_raw raw).1 freeBefore (endTagText_markup isName)
      rw [List.append_nil, count, undotted] at index
      exact index
    rw [if_pos undotted]
    apply parse_of_spells
    conv => rhs; rw [behind]
    exact spells_rawElement plain raw filled free found
  · have spelled := startTagText_markup StartsNothing isName (List.forall_mem_nil _) []
    have reads : readNodes source = (Progress.start.add (.text before)).run source.lowerCase
        (.between before (startTagMarkup tag [] ++ (value ++ endTagMarkup tag))) := by
      rw [behind]
      exact readNodes_plain plain (.inr (endsText_startTagText spelled _))
    have late := (Progress.start.add (.text before)).run_rawText_late raw freeBefore
      (by rw [count]; exact undotted)
    rw [count] at late
    rw [if_neg undotted, parse, reads, late]
    rfl

end

/-- A tag in mixed case, and a value that begins like an end tag. -/
theorem parse_rawElement_style :
    let before := Text.ofString "a > b"
    let tag := Text.ofString "StYle"
    let value := Text.ofString "</sty"
    (IsPlain before ∧ tag.map CodeUnit.asciiLower ∈ rawTextTags ∧ value ≠ [] ∧
        ¬HoldsEndTag tag value) ∧
      parse (Text.ofString "a > b<StYle></sty</StYle>") =
        .ok ⟨[.text before, .element tag [] [.text value]]⟩ := by
  intro before tag value
  have plain : IsPlain before := ⟨by decide, by decide, by decide, by decide⟩
  have raw : tag.map CodeUnit.asciiLower ∈ rawTextTags := by decide
  have filled : value ≠ [] := by decide
  have free : ¬HoldsEndTag tag value := by
    rintro ⟨name, same, holds⟩
    have count : name.length = tag.length := by simpa using congrArg List.length same
    have five : tag.length = 5 := rfl
    have within : name.length + 2 ≤ 5 := holds.length_le
    omega
  refine ⟨⟨plain, raw, filled, free⟩, ?_⟩
  have source : before ++ startTagMarkup tag [] ++ (value ++ endTagMarkup tag) =
      Text.ofString "a > b<StYle></sty</StYle>" := by decide
  rw [← source]
  exact (parse_rawElement plain raw filled free).trans (if_pos (by decide))

/-- After a dotted capital I a script is not read as it stands. -/
theorem not_forall_parse_rawElement :
    ¬∀ before tag value : Text, IsPlain before → tag.map CodeUnit.asciiLower ∈ rawTextTags →
      value ≠ [] → ¬HoldsEndTag tag value →
      parse (before ++ startTagMarkup tag [] ++ (value ++ endTagMarkup tag)) =
        .ok ⟨[.text before, .element tag [] [.text value]]⟩ := by
  intro parses
  have free : ¬HoldsEndTag (Text.ofString "script") [0x61] := by
    rintro ⟨name, _, holds⟩
    exact absurd holds.length_le (by simp)
  have success := parses [0x130] (Text.ofString "script") [0x61]
    ⟨by decide, by decide, by decide, by decide⟩ (by decide) (by decide) free
  have failed : (parse (0x130 :: Text.ofString "<script>a</script>")).isOk = false := by
    decide +kernel
  have same : [0x130] ++ startTagMarkup (Text.ofString "script") [] ++
      ([0x61] ++ endTagMarkup (Text.ofString "script")) =
        0x130 :: Text.ofString "<script>a</script>" := by
    decide
  rw [same] at success
  rw [success] at failed
  cases failed

end Document
end HtmlFragments
