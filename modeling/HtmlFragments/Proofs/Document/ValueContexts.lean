import HtmlFragments.Proofs.Document.Decoding
import HtmlFragments.Proofs.Document.RoundTrip
import HtmlFragments.Proofs.Markup.TagLookahead

/-! # One value in four places

Text between tags, values in either kind of quotes and bare values end at different units, and what
follows them differs. A text in which nothing ends any of them is read alike in all: no reference
takes a unit of what follows, so that even one that is cut off stands for the same. Main result:
such a text is decoded to the same value in all four places. -/
set_option autoImplicit false

namespace HtmlFragments

namespace Markup

open Grammar
open CharacterData (Ended Foresees endsBare endsQuoted)

/-- Neither whitespace nor `<`, `>`, `/` or a quote. -/
def isInert (unit : CodeUnit) : Bool :=
  !(CodeUnit.isWhitespace unit || unit == 0x3C || unit == 0x3E || unit == 0x2F || isQuote unit)

def PassesInert (ends : Text → Bool) : Prop :=
  ∀ unit, isInert unit = true → ∀ rest, ends (unit :: rest) = false

theorem isInert_iff {unit : CodeUnit} :
    isInert unit = true ↔ CodeUnit.isWhitespace unit = false ∧ unit ≠ 0x3C ∧ unit ≠ 0x3E ∧
      unit ≠ 0x2F ∧ isQuote unit = false := by
  simp [isInert, and_assoc]

theorem passesInert_endsText : PassesInert endsText := by
  intro unit inert rest
  obtain ⟨_, notOpening, _⟩ := isInert_iff.mp inert
  exact CharacterData.endsText_of_ne notOpening rest

theorem passesInert_endsQuoted {quote : CodeUnit} (quotes : isQuote quote = true) :
    PassesInert (endsQuoted quote) := by
  intro unit inert rest
  obtain ⟨_, _, _, _, noQuote⟩ := isInert_iff.mp inert
  refine beq_eq_false_iff_ne.mpr ?_
  rintro rfl
  rw [quotes] at noQuote
  cases noQuote

theorem passesInert_endsBare : PassesInert endsBare := by
  intro unit inert rest
  obtain ⟨noSpace, _, notEnd, notSlash, _⟩ := isInert_iff.mp inert
  rw [CharacterData.endsBare_of_ne notEnd notSlash]
  exact noSpace

/-! ## Reading inert text -/

section

variable {text value next : Text}

theorem not_mem_opening (inert : Text.AllOf isInert text) : 0x3C ∉ text := fun member =>
  (isInert_iff.mp (inert _ member)).2.1 rfl

/-- Whatever inert text is decoded to is read in front of every end. -/
theorem read_of_inert {ends : Text → Bool} (foresees : Foresees ends) (passes : PassesInert ends)
    (inert : Text.AllOf isInert text) (ended : Ended ends next)
    (decodes : Decodes foundNames text value) :
    CharacterData.read ends (text ++ next) = (value, text.length) := by
  rw [CharacterData.read_append foresees endsText ended
    (fun unit member => passes unit (inert unit member))
    (fun unit member => passesInert_endsText unit (inert unit member)),
    read_of_decodes (not_mem_opening inert) decodes]

/-- A way to write a value before a text: it is read whole and begins with no whitespace. -/
structure WritesBefore (next written value : Text) : Prop where
  stops : Text.Stops CodeUnit.isWhitespace (written ++ next)
  reads : ∀ place, readValue (.between place (written ++ next)) =
    .ok (value, .between (place ++ written) next)

theorem writesBefore_quoted (next : Text) {quote : CodeUnit} (quotes : isQuote quote = true)
    (inert : Text.AllOf isInert text) (decodes : Decodes foundNames text value) :
    WritesBefore next (quote :: (text ++ [quote])) value where
  stops := by rcases CharacterData.isQuote_cases quotes with rfl | rfl <;> rfl
  reads place := readValue_of_readQuoted place next quotes
    (read_of_inert (CharacterData.foresees_endsQuoted quotes) (passesInert_endsQuoted quotes) inert
      (.inr (beq_self_eq_true quote)) decodes)

theorem writesBefore_bare (nonempty : text ≠ []) (inert : Text.AllOf isInert text)
    (ended : Ended endsBare next) (decodes : Decodes foundNames text value) :
    WritesBefore next text value := by
  have reads := read_of_inert CharacterData.foresees_endsBare passesInert_endsBare inert ended
    decodes
  obtain ⟨unit, more, rfl⟩ := List.exists_cons_of_ne_nil nonempty
  have first := inert unit List.mem_cons_self
  obtain ⟨noSpace, _, _, _, noQuote⟩ := isInert_iff.mp first
  exact ⟨noSpace, fun place =>
    readValue_of_readBare place nonempty noQuote (passesInert_endsBare unit first _) reads⟩

end

/-! ## An element with one attribute or one text -/

section

variable {tag name written value next : Text}

theorem readAttributes_attribute (before : Text) (isName : IsAttributeName name)
    (writes : WritesBefore (0x3E :: next) written value) :
    readAttributes tag
        (.between before (0x20 :: (name ++ 0x3D :: (written ++ 0x3E :: next)))) =
      .ok (([⟨name, value⟩], .plain),
        .between (before ++ 0x20 :: (name ++ 0x3D :: (written ++ [0x3E]))) next) := by
  have pair := (readAttribute_valued (before ++ [0x20]) isName (Text.allOf_nil _)
    (Text.allOf_nil _) writes.stops).trans (bind_eq_of_ok (writes.reads _))
  have row := readAttributes_end tag
    (before ++ [0x20] ++ (name ++ ([] ++ 0x3D :: [])) ++ written) (Text.allOf_nil _) .plain next
  obtain ⟨first, more, rfl⟩ := List.exists_cons_of_ne_nil isName.1
  have named : CodeUnit.isAttributeNameUnit first = true := isName.2 first List.mem_cons_self
  have space : Text.Blank [0x20] := List.all_eq_true.mp (by decide)
  have skips := Cursor.skipWhitespace_between before [0x20]
    (first :: more ++ 0x3D :: (written ++ 0x3E :: next)) space
    (not_isWhitespace_of_isAttributeNameUnit named)
  rw [← List.singleton_append, readAttributes_pair (congrArg Cursor.rest skips) named, skips]
  simp only [List.nil_append, tagEndText, List.singleton_append] at pair row ⊢
  rw [bind_eq_of_ok pair]
  show (readAttributes tag _ >>= _) = _
  rw [bind_eq_of_ok row]
  simp only [List.append_assoc, List.cons_append, List.nil_append]
  rfl

theorem readStartTag_attribute (before : Text) (isTag : IsTagName tag)
    (isName : IsAttributeName name) (writes : WritesBefore (0x3E :: next) written value) :
    readStartTag
        (.between before (0x3C :: (tag ++ 0x20 :: (name ++ 0x3D :: (written ++ 0x3E :: next))))) =
      .ok (⟨tag, [⟨name, value⟩], .plain⟩, .between
        (before ++ 0x3C :: (tag ++ 0x20 :: (name ++ 0x3D :: (written ++ [0x3E])))) next) := by
  have outside : Text.Stops CodeUnit.isNameUnit
      (0x20 :: (name ++ 0x3D :: (written ++ 0x3E :: next))) := by
    show CodeUnit.isNameUnit 0x20 = false
    decide
  rw [readStartTag_name before isTag outside,
    bind_eq_of_ok (readAttributes_attribute _ isName writes)]
  simp only [List.append_assoc, List.cons_append]
  rfl

end

end Markup

namespace Document

open Markup Markup.Grammar

section

variable {tag name written value text : Text} (isTag : IsTagName tag)

include isTag

theorem parse_of_run {source : Text} {attributes : List Attribute} (children : List Node)
    (unmarked : source.head? ≠ some 0xFEFF)
    (runs : ∃ before, Progress.start.run source.lowerCase (.between [] source) =
      (Progress.mk [⟨tag, attributes, children⟩] []).run source.lowerCase
        (.between before (endTagMarkup tag))) :
    parse source = .ok ⟨[.element tag attributes children.reverse]⟩ := by
  obtain ⟨before, runs⟩ := runs
  have closes : ∀ lowered, (Progress.mk [⟨tag, attributes, children⟩] []).run lowered
      (.between before (endTagMarkup tag ++ [])) = _ :=
    fun lowered => Progress.run_closing lowered before (endTagText_markup isTag)
  simp only [List.append_nil] at closes
  rw [parse_eq_ok, readNodes, contentStart_unmarked unmarked, runs, closes,
    Progress.run_of_end _ rfl]
  rfl

variable (notVoid : isVoid tag = false) (notRaw : isRawText tag = false)

include notVoid notRaw

theorem parse_attribute (isName : IsAttributeName name)
    (writes : WritesBefore (0x3E :: endTagMarkup tag) written value) :
    parse (0x3C :: (tag ++ 0x20 :: (name ++ 0x3D :: (written ++ 0x3E :: endTagMarkup tag)))) =
      .ok ⟨[.element tag [⟨name, value⟩] []]⟩ := by
  have started := readStartTag_attribute [] isTag isName writes
  cases tag with
  | nil => exact absurd isTag id
  | cons first more =>
    have isStartTag := ofText_startTag isTag.1
      (more ++ 0x20 :: (name ++ 0x3D :: (written ++ 0x3E :: endTagMarkup (first :: more))))
    have steps : ∀ lowered, Progress.start.step lowered _ = _ := fun lowered =>
      Progress.step_of_readStartTag .start isStartTag started
        (openElement_content lowered _ _ notVoid notRaw)
    exact parse_of_run isTag [] (by simp)
      ⟨_, Progress.run_of_step (List.cons_ne_nil _ _) (steps _)⟩

theorem parse_child (continues : endsText (text ++ endTagMarkup tag) = false)
    (reads : CharacterData.read endsText (text ++ endTagMarkup tag) = (value, text.length)) :
    parse (startTagMarkup tag [] ++ (text ++ endTagMarkup tag)) =
      .ok ⟨[.element tag [] [.text value]]⟩ := by
  have spelled : StartTagText StartsNothing _ _ _ :=
    startTagText_markup StartsNothing isTag
      (fun pair (member : pair ∈ []) => absurd member List.not_mem_nil) (text ++ endTagMarkup tag)
  have nonempty : text ++ endTagMarkup tag ≠ [] := by simp [endTagMarkup_eq]
  have opens : ∀ lowered,
      Progress.start.run lowered (.between [] (startTagMarkup tag [] ++ _)) = _ :=
    fun lowered => Progress.run_opening lowered [] .start spelled notVoid notRaw
  have steps : ∀ lowered, (Progress.mk [⟨tag, [], []⟩] []).step lowered _ = _ := fun lowered =>
    Progress.step_of_read lowered (startTagMarkup tag []) _ continues reads
  exact parse_of_run isTag [.text value] (by simp [startTagMarkup_eq])
    ⟨_, (opens _).trans (Progress.run_of_step nonempty (steps _))⟩

end

/-- Main result: an inert text is decoded to one value between tags, in quotes of either kind and
without quotes. -/
theorem parse_value_contexts {text : Text} (nonempty : text ≠ [])
    (inert : Text.AllOf isInert text) :
    ∃ value, Decodes foundNames text value ∧
      parse (Text.ofString "<p>" ++ text ++ Text.ofString "</p>") =
        .ok ⟨[.element (Text.ofString "p") [] [.text value]]⟩ ∧
      parse (Text.ofString "<p a=\"" ++ text ++ Text.ofString "\"></p>") =
        .ok ⟨[.element (Text.ofString "p") [⟨Text.ofString "a", value⟩] []]⟩ ∧
      parse (Text.ofString "<p a='" ++ text ++ Text.ofString "'></p>") =
        .ok ⟨[.element (Text.ofString "p") [⟨Text.ofString "a", value⟩] []]⟩ ∧
      parse (Text.ofString "<p a=" ++ text ++ Text.ofString "></p>") =
        .ok ⟨[.element (Text.ofString "p") [⟨Text.ofString "a", value⟩] []]⟩ := by
  obtain ⟨value, decodes⟩ := exists_decodes foundNames text
  have isTag : IsTagName (Text.ofString "p") := ⟨by decide, Text.allOf_nil _⟩
  have isName : IsAttributeName (Text.ofString "a") := by
    exact ⟨by decide, List.all_eq_true.mp (by decide)⟩
  have notVoid : isVoid (Text.ofString "p") = false := by decide +kernel
  have notRaw : isRawText (Text.ofString "p") = false := by decide +kernel
  have closing : 0x3E :: endTagMarkup (Text.ofString "p") = Text.ofString "></p>" := by decide
  have parsesAs : ∀ written,
      WritesBefore (0x3E :: endTagMarkup (Text.ofString "p")) written value →
        parse (Text.ofString "<p a=" ++ (written ++ Text.ofString "></p>")) =
          .ok ⟨[.element (Text.ofString "p") [⟨Text.ofString "a", value⟩] []]⟩ := by
    intro written writes
    have parsed := parse_attribute isTag notVoid notRaw isName writes
    rwa [closing] at parsed
  refine ⟨value, decodes, ?_, ?_, ?_, ?_⟩
  · have ended : CharacterData.Ended endsText (endTagMarkup (Text.ofString "p")) := .inr rfl
    have reads := read_of_inert CharacterData.foresees_endsText passesInert_endsText inert ended
      decodes
    obtain ⟨unit, more, rfl⟩ := List.exists_cons_of_ne_nil nonempty
    have continues := passesInert_endsText unit (inert unit List.mem_cons_self)
    rw [List.append_assoc]
    exact parse_child isTag notVoid notRaw (continues _) reads
  · have parsed := parsesAs _ (writesBefore_quoted _ (rfl : isQuote 0x22 = true) inert decodes)
    rw [List.cons_append, List.append_assoc] at parsed
    rw [List.append_assoc]
    exact parsed
  · have parsed := parsesAs _ (writesBefore_quoted _ (rfl : isQuote 0x27 = true) inert decodes)
    rw [List.cons_append, List.append_assoc] at parsed
    rw [List.append_assoc]
    exact parsed
  · rw [List.append_assoc]
    exact parsesAs _ (writesBefore_bare nonempty inert (.inr rfl) decodes)

/-- References known and unknown, with and without a semicolon, and one that is cut off. -/
theorem parse_value_contexts_references :
    let text := Text.ofString "&lt;=&amp;&b;&#x41&#66"
    let value := Text.ofString "<=&&b;AB"
    (text ≠ [] ∧ Text.AllOf isInert text) ∧ Decodes foundNames text value ∧
      parse (Text.ofString "<p a=" ++ text ++ Text.ofString "></p>") =
        .ok ⟨[.element (Text.ofString "p") [⟨Text.ofString "a", value⟩] []]⟩ := by
  intro text value
  have nonempty : text ≠ [] := by decide
  have inert : Text.AllOf isInert text := by decide +kernel
  obtain ⟨decoded, decodes, between, _, _, bare⟩ := parse_value_contexts nonempty inert
  have parsed : parse (Text.ofString "<p>" ++ text ++ Text.ofString "</p>") =
      .ok ⟨[.element (Text.ofString "p") [] [.text value]]⟩ := by decide +kernel
  have same : decoded = value := by
    rw [between] at parsed
    cases parsed
    rfl
  rw [same] at decodes bare
  exact ⟨⟨nonempty, inert⟩, decodes, bare⟩

end Document
end HtmlFragments
