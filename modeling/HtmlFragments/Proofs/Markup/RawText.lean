import HtmlFragments.Proofs.Markup.TagReading
import HtmlFragments.Proofs.Text.Lookup

/-! # Reading raw text

The end tag of a raw text element is looked up in the lower case of the whole source. Up to the
first dotted capital I a place in the source is the same place in its lower case; so an element that
ends before one is read as it stands. -/
set_option autoImplicit false

namespace HtmlFragments.Markup

open Grammar

/-- The look-up from the place after `before` stops right after `value`. -/
def FoundAfter (source before tag value : Text) : Prop :=
  Text.indexOf? (0x3C :: 0x2F :: tag.lowerCase) (source.lowerCase.drop before.length) =
    some value.length

theorem readRawText_between {source before tag value closing rest : Text}
    (found : FoundAfter source before tag value) (closes : EndTagText tag closing) :
    readRawText source.lowerCase tag (.between before (value ++ (closing ++ rest))) =
      .ok (value, .between (before ++ value ++ closing) rest) := by
  have toEnd := Cursor.advance_between before value (closing ++ rest) value.length rfl
  have closed := readEndTag_between (before ++ value) rest closes
  have index : Text.indexOf? (0x3C :: 0x2F :: tag.lowerCase)
      (source.lowerCase.drop (Cursor.between before (value ++ (closing ++ rest))).position) =
        some value.length := found
  simp only [readRawText, index, toEnd, Cursor.between_rest, List.take_left]
  rw [bind_eq_of_ok closed]
  rfl

theorem rawTextTags_borderless : ∀ tag ∈ rawTextTags, Text.Borderless (0x3C :: 0x2F :: tag) := by
  decide +kernel

theorem rawTextTags_ascii {tag : Text} (member : tag ∈ rawTextTags) :
    ∀ unit ∈ tag, unit < 0x80 ∧ unit ≠ 0x6B := by
  have all : ∀ tag ∈ rawTextTags, (tag.all fun unit => unit < 0x80 && unit != 0x6B) = true := by
    decide +kernel
  intro unit inside
  simpa using List.all_eq_true.mp (all tag member) unit inside

/-- A raw text tag does not end in the letter that a dotted capital I is lowered to. -/
theorem rawTextTags_getLast? :
    ∀ tag ∈ rawTextTags, (0x3C :: 0x2F :: tag).getLast? ≠ some 0x69 := by
  decide +kernel

theorem mem_rawTextTags {tag : Text} (raw : isRawText tag = true) :
    tag.lowerCase ∈ rawTextTags := by
  simpa [isRawText] using raw

theorem lowerCase_of_isRawText {tag name : Text} (raw : isRawText tag = true)
    (same : name.lowerCase = tag.lowerCase) : name.map CodeUnit.asciiLower = tag.lowerCase := by
  have ascii := rawTextTags_ascii (mem_rawTextTags raw)
  rw [← same] at ascii ⊢
  exact Text.lowered_ascii (Text.lowered_lowerCase name) ascii

theorem endTag_ascii {tag name : Text} (raw : isRawText tag = true)
    (lower : name.map CodeUnit.asciiLower = tag.lowerCase) :
    ∀ unit ∈ 0x3C :: 0x2F :: name, unit < 0x80 := by
  intro unit member
  rcases List.mem_cons.mp member with rfl | member
  · decide
  rcases List.mem_cons.mp member with rfl | member
  · decide
  have inside : CodeUnit.asciiLower unit ∈ tag.lowerCase := lower ▸ List.mem_map_of_mem member
  exact CodeUnit.asciiLower_ascii (rawTextTags_ascii (mem_rawTextTags raw) _ inside).1

theorem lowered_endTag {tag closing rest lowers : Text} (raw : isRawText tag = true)
    (closes : EndTagText tag closing) (lowered : Text.Lowered (closing ++ rest) lowers) :
    ∃ more, lowers = (0x3C :: 0x2F :: tag.lowerCase) ++ more := by
  cases closes with
  | @spaced name spaces isName same blank =>
    have lower : name.map CodeUnit.asciiLower = tag.lowerCase :=
      lowerCase_of_isRawText raw (by simpa [Text.sameUpToCase] using same)
    have split : 0x3C :: 0x2F :: (name ++ (spaces ++ [0x3E])) ++ rest =
        (0x3C :: 0x2F :: name) ++ ((spaces ++ [0x3E]) ++ rest) := by simp
    rw [split] at lowered
    obtain ⟨first, second, rfl, lowersFirst, _⟩ := Text.lowered_append lowered
    refine ⟨second, ?_⟩
    rw [Text.lowered_of_ascii (endTag_ascii raw lower) lowersFirst, List.map_cons, List.map_cons,
      lower]
    rfl

/-- Raw text without an end tag is lowered to a text without the end tag that is looked up. -/
theorem not_infix_of_lowered {tag value lowers : Text} (raw : isRawText tag = true)
    (lowered : Text.Lowered value lowers) (free : ¬HoldsEndTag tag value) :
    ¬0x3C :: 0x2F :: tag.lowerCase <:+: lowers := by
  rintro ⟨front, back, rfl⟩
  have lastUnit := rawTextTags_getLast? _ (mem_rawTextTags raw)
  have firstUnit : (0x3C :: 0x2F :: tag.lowerCase).head? ≠ some 0x307 := by simp
  obtain ⟨first, last, rfl, lowersFirst, _⟩ :=
    Text.lowered_split_of_uncut (fun _ ends => absurd (by simpa using ends) lastUnit) lowered
  obtain ⟨start, word, rfl, _, lowersWord⟩ :=
    Text.lowered_split_of_uncut (fun _ _ => firstUnit) lowersFirst
  have tagAscii := rawTextTags_ascii (mem_rawTextTags raw)
  have ascii : ∀ lower ∈ 0x3C :: 0x2F :: tag.lowerCase, lower < 0x80 ∧ lower ≠ 0x6B := by
    intro lower member
    rcases List.mem_cons.mp member with rfl | member
    · decide
    rcases List.mem_cons.mp member with rfl | member
    · decide
    exact tagAscii lower member
  have whole := Text.lowered_ascii lowersWord ascii
  obtain ⟨opening, afterOpening, rfl, openingLower, whole⟩ := List.map_eq_cons_iff.mp whole
  obtain ⟨slash, name, rfl, slashLower, nameLower⟩ := List.map_eq_cons_iff.mp whole
  have isOpening : opening = 0x3C := CodeUnit.eq_of_asciiLower openingLower (by decide)
  have isSlash : slash = 0x2F := CodeUnit.eq_of_asciiLower slashLower (by decide)
  subst isOpening isSlash
  refine free ⟨name, ?_, start, last, by simp⟩
  rw [nameLower, lowerCase_of_isRawText raw rfl]

theorem infix_of_holdsEndTag {tag value lowers : Text} (raw : isRawText tag = true)
    (holds : HoldsEndTag tag value) (lowered : Text.Lowered value lowers) :
    0x3C :: 0x2F :: tag.lowerCase <:+: lowers := by
  obtain ⟨name, same, front, back, rfl⟩ := holds
  obtain ⟨first, last, rfl, lowersFirst, _⟩ := Text.lowered_append lowered
  obtain ⟨start, word, rfl, _, lowersWord⟩ := Text.lowered_append lowersFirst
  have lower : name.map CodeUnit.asciiLower = tag.lowerCase :=
    same.trans (lowerCase_of_isRawText raw rfl)
  rw [Text.lowered_of_ascii (endTag_ascii raw lower) lowersWord, List.map_cons, List.map_cons, lower]
  exact ⟨start, last, rfl⟩

/-- Without an end tag before it the end of raw text is looked up as many units too late as dotted
capitals I stand before it. -/
theorem indexOf?_lowered {before tag value closing : Text} (rest : Text)
    (raw : isRawText tag = true) (free : ¬HoldsEndTag tag (before ++ value))
    (closes : EndTagText tag closing) :
    Text.indexOf? (0x3C :: 0x2F :: tag.lowerCase)
        ((before ++ (value ++ (closing ++ rest))).lowerCase.drop before.length) =
      some (value.length + (before ++ value).count CodeUnit.dottedCapital) := by
  rw [← List.append_assoc]
  obtain ⟨first, last, whole, lowersFirst, lowersLast⟩ :=
    Text.lowered_append (Text.lowered_lowerCase (before ++ value ++ (closing ++ rest)))
  obtain ⟨more, rfl⟩ := lowered_endTag raw closes lowersLast
  have borderless := rawTextTags_borderless _ (mem_rawTextTags raw)
  have count := Text.lowered_length_count lowersFirst
  rw [List.length_append] at count
  have within : before.length ≤ first.length := by omega
  have absent : ¬0x3C :: 0x2F :: tag.lowerCase <:+: first.drop before.length := fun holds =>
    not_infix_of_lowered raw lowersFirst free (holds.trans (List.drop_suffix _ _).isInfix)
  rw [whole, List.drop_append_of_le_length within, Text.indexOf?_append more borderless absent,
    List.length_drop]
  congr 1
  omega

/-- Up to the first dotted capital I the look-up finds the end of raw text. -/
theorem foundAfter_of_undotted {before tag value closing : Text} (rest : Text)
    (raw : isRawText tag = true)
    (undottedBefore : CodeUnit.dottedCapital ∉ before)
    (undotted : CodeUnit.dottedCapital ∉ value) (free : ¬HoldsEndTag tag value)
    (closes : EndTagText tag closing) :
    FoundAfter (before ++ (value ++ (closing ++ rest))) before tag value := by
  obtain ⟨middle, last, whole, lowersValue, lowersLast⟩ :=
    Text.lowered_append (Text.lowered_drop (value ++ (closing ++ rest)) undottedBefore)
  obtain ⟨more, rfl⟩ := lowered_endTag raw closes lowersLast
  have borderless := rawTextTags_borderless _ (mem_rawTextTags raw)
  rw [FoundAfter, whole,
    Text.indexOf?_append more borderless (not_infix_of_lowered raw lowersValue free),
    Text.lowered_length undotted lowersValue]

/-- Up to the first dotted capital I no end tag stands before the one that is found. -/
theorem free_of_foundAfter {before tag value rest : Text} (raw : isRawText tag = true)
    (undottedBefore : CodeUnit.dottedCapital ∉ before)
    (undotted : CodeUnit.dottedCapital ∉ value)
    (found : FoundAfter (before ++ (value ++ rest)) before tag value) : ¬HoldsEndTag tag value := by
  intro holds
  obtain ⟨first, second, whole, lowersValue, _⟩ :=
    Text.lowered_append (Text.lowered_drop (value ++ rest) undottedBefore)
  rw [FoundAfter, whole] at found
  obtain ⟨inside, more, shape, count, absent⟩ := Text.indexOf?_eq_some (List.cons_ne_nil _ _) found
  rw [← Text.lowered_length undotted lowersValue] at count
  have same : first = inside := (List.append_inj shape count.symm).1
  rw [← same] at absent
  exact absent (infix_of_holdsEndTag raw holds lowersValue)

end HtmlFragments.Markup
