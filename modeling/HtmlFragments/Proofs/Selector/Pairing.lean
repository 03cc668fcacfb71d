import HtmlFragments.Proofs.Selector.Derivation
import HtmlFragments.Proofs.Text.Pairing
import HtmlFragments.Selector.Basic

/-! # Surrogate pairs in queries

In the grammar of queries every name and value ends before a unit in ASCII or at the end of the
text. So a text in which all surrogates are paired spells only queries of such texts, and they are
written as such a text again. -/
set_option autoImplicit false

namespace HtmlFragments

structure Selector.Paired (selector : Selector) : Prop where
  tag : ∀ tag, selector.tag = some tag → tag.Paired
  ids : ∀ value ∈ selector.ids, value.Paired
  classes : ∀ value ∈ selector.classes, value.Paired
  attributes : ∀ pair ∈ selector.attributes, pair.Paired

def Query.Paired : Query → Prop
  | .simple selector => selector.Paired
  | .combined _ left right => left.Paired ∧ right.Paired
  | .union left right => left.Paired ∧ right.Paired

def Selector.texts (selector : Selector) : List Text :=
  selector.tag.toList ++ selector.ids ++ selector.classes ++
    selector.attributes.flatMap Attribute.texts

def Query.texts : Query → List Text
  | .simple selector => selector.texts
  | .combined _ left right => left.texts ++ right.texts
  | .union left right => left.texts ++ right.texts

theorem Selector.Paired.of_mem_texts {selector : Selector} {text : Text}
    (paired : selector.Paired) (member : text ∈ selector.texts) : text.Paired := by
  simp only [texts, List.mem_append, Option.mem_toList, List.mem_flatMap] at member
  rcases member with ((isTag | isId) | isClass) | ⟨pair, isPair, isText⟩
  · exact paired.tag text isTag
  · exact paired.ids text isId
  · exact paired.classes text isClass
  · exact (paired.attributes pair isPair).of_mem_texts isText

theorem Query.Paired.of_mem_texts {query : Query} {text : Text} (paired : query.Paired)
    (member : text ∈ query.texts) : text.Paired := by
  induction query with
  | simple selector => exact Selector.Paired.of_mem_texts paired member
  | combined _ left right ihLeft ihRight | union left right ihLeft ihRight =>
    rcases List.mem_append.mp member with inLeft | inRight
    · exact ihLeft paired.1 inLeft
    · exact ihRight paired.2 inRight

namespace Query.Grammar

variable {value written text : Text} {query : Query}

theorem Value.paired (spelled : Value value written) (paired : Text.Paired written) :
    Text.Paired value := by
  cases spelled with
  | bare _ => exact paired
  | doubleQuoted _ =>
    have inside : Text.Paired (value ++ [0x22]) := paired.after_single (by decide)
    exact (inside.cut rfl).1
  | singleQuoted _ =>
    have inside : Text.Paired (value ++ [0x27]) := paired.after_single (by decide)
    exact (inside.cut rfl).1

theorem AttributeTest.paired {required : Attribute} (test : AttributeTest required written)
    (paired : Text.Paired written) : required.Paired := by
  cases test with
  | spaced blankBefore _ blankAfter blankBeforeValue spelled blankAfterValue =>
    obtain ⟨name, afterName⟩ :=
      (paired.after_blank blankBefore).cut (Text.stops_blank_append blankAfter rfl)
    have afterEquals := (afterName.after_blank blankAfter).after_single (by decide)
    obtain ⟨quoted, _⟩ := (afterEquals.after_blank blankBeforeValue).cut
      (Text.stops_blank_append blankAfterValue rfl)
    exact ⟨name, spelled.paired quoted⟩

theorem Conditions.stopsLow {ids classes : List Text} {attributes : List Attribute}
    (conditions : Conditions ids classes attributes text) :
    Text.Stops CodeUnit.isLowSurrogate text := by
  cases conditions with
  | none => trivial
  | idIs _ _ | classIs _ _ | attributeIs _ _ => rfl

theorem Conditions.paired {ids classes : List Text} {attributes : List Attribute}
    (conditions : Conditions ids classes attributes text) (paired : Text.Paired text) :
    (Selector.mk .none ids classes attributes).Paired := by
  induction conditions with
  | none => exact ⟨nofun, nofun, nofun, nofun⟩
  | idIs _ others ih =>
    obtain ⟨name, rest⟩ := (paired.after_single (by decide)).cut others.stopsLow
    have later := ih rest
    exact { later with ids := List.forall_mem_cons.mpr ⟨name, later.ids⟩ }
  | classIs _ others ih =>
    obtain ⟨name, rest⟩ := (paired.after_single (by decide)).cut others.stopsLow
    have later := ih rest
    exact { later with classes := List.forall_mem_cons.mpr ⟨name, later.classes⟩ }
  | attributeIs test others ih =>
    obtain ⟨first, rest⟩ := (paired.after_single (by decide)).cut others.stopsLow
    have later := ih rest
    exact { later with
      attributes := List.forall_mem_cons.mpr ⟨test.paired first, later.attributes⟩ }

theorem Compound.paired {selector : Selector} (compound : Compound selector text)
    (paired : Text.Paired text) : selector.Paired := by
  cases compound with
  | @tagged tag _ _ _ _ _ conditions =>
    obtain ⟨name, rest⟩ := paired.cut conditions.stopsLow
    refine { conditions.paired rest with tag := ?_ }
    rintro other ⟨⟩
    exact name
  | starred conditions => exact conditions.paired (paired.after_single (by decide))
  | untagged _ conditions => exact conditions.paired paired

theorem Separator.stopsLow {combinator : Combinator} {separator : Text}
    (separates : Separator combinator separator) (rest : Text) :
    Text.Stops CodeUnit.isLowSurrogate (separator ++ rest) := by
  cases separates with
  | child blankBefore _ =>
    rw [List.append_assoc]
    exact Text.stops_blank_append blankBefore rfl
  | descendant nonempty blank =>
    obtain ⟨space, others, rfl⟩ := List.exists_cons_of_ne_nil nonempty
    have outside := CodeUnit.isSurrogate_of_isWhitespace (blank space List.mem_cons_self)
    exact (CodeUnit.isSurrogate_eq_false_iff.mp outside).2

theorem Separator.after {combinator : Combinator} {separator rest : Text}
    (separates : Separator combinator separator) (paired : Text.Paired (separator ++ rest)) :
    Text.Paired rest := by
  cases separates with
  | child blankBefore blankAfter =>
    rw [List.append_assoc] at paired
    exact ((paired.after_blank blankBefore).after_single (by decide)).after_blank blankAfter
  | descendant _ blank => exact paired.after_blank blank

theorem Complex.paired (complex : Complex query text) (paired : Text.Paired text) :
    query.Paired := by
  induction complex with
  | single compound => exact compound.paired paired
  | joined _ separates compound ih =>
    obtain ⟨left, others⟩ := paired.cut (separates.stopsLow _)
    exact ⟨ih left, compound.paired (separates.after others)⟩

theorem Alternatives.paired (alternatives : Alternatives query text) (paired : Text.Paired text) :
    query.Paired := by
  induction alternatives with
  | single complex => exact complex.paired paired
  | united _ blankBefore blankAfter complex ih =>
    obtain ⟨left, others⟩ := paired.cut (Text.stops_blank_append blankBefore rfl)
    have afterComma := (others.after_blank blankBefore).after_single (by decide)
    exact ⟨ih left, complex.paired (afterComma.after_blank blankAfter)⟩

theorem Spells.paired (spells : Spells query text) (paired : Text.Paired text) : query.Paired := by
  cases spells with
  | padded blankBefore alternatives blankAfter =>
    have ended : Text.Stops CodeUnit.isLowSurrogate [] := trivial
    have stops := Text.stops_blank_append blankAfter ended
    rw [List.append_nil] at stops
    exact alternatives.paired ((paired.after_blank blankBefore).cut stops).1

end Query.Grammar

/-! ## Writing -/

theorem paired_attributeTestText {pair : Attribute} (paired : pair.Paired) :
    Text.Paired (attributeTestText pair) := by
  have quote : ∀ held : Bool, Text.Paired (if held then [0x27] else [0x22]) := by
    intro held
    cases held <;> exact Text.isWellFormed_iff.mp rfl
  have opening : Text.Paired (Text.ofString "[") := Text.isWellFormed_iff.mp rfl
  have equals : Text.Paired (Text.ofString "=") := Text.isWellFormed_iff.mp rfl
  have closing : Text.Paired (Text.ofString "]") := Text.isWellFormed_iff.mp rfl
  exact (((((opening.append paired.name).append equals).append (quote _)).append
    paired.value).append (quote _)).append closing

theorem Selector.Paired.conditionsText {selector : Selector} (paired : selector.Paired) :
    selector.conditionsText.Paired := by
  have marked : ∀ mark : CodeUnit, CodeUnit.isSurrogate mark = false → ∀ values : List Text,
      (∀ value ∈ values, value.Paired) → Text.Paired (values.flatMap (mark :: ·)) :=
    fun mark outside values each =>
      Text.paired_flatMap fun value member => .single outside (each value member)
  exact ((marked 0x23 (by decide) _ paired.ids).append
    (marked 0x2E (by decide) _ paired.classes)).append
      (Text.paired_flatMap fun pair member =>
        paired_attributeTestText (paired.attributes pair member))

theorem Selector.Paired.text {selector : Selector} (paired : selector.Paired) :
    selector.text.Paired := by
  unfold Selector.text
  split
  · rename_i tag named
    exact (paired.tag tag named).append paired.conditionsText
  · split
    · exact Text.isWellFormed_iff.mp rfl
    · exact paired.conditionsText

theorem Combinator.paired_text (combinator : Combinator) : combinator.text.Paired := by
  cases combinator <;> exact Text.isWellFormed_iff.mp rfl

theorem Query.Paired.text {query : Query} (paired : query.Paired) : query.text.Paired := by
  induction query with
  | simple selector => exact Selector.Paired.text paired
  | combined combinator left right ihLeft ihRight =>
    exact ((ihLeft paired.1).append combinator.paired_text).append (ihRight paired.2)
  | union left right ihLeft ihRight =>
    have comma : Text.Paired (Text.ofString ", ") := Text.isWellFormed_iff.mp rfl
    exact ((ihLeft paired.1).append comma).append (ihRight paired.2)

theorem Query.paired_of_parse {source : Text} {query : Query} (paired : source.Paired)
    (success : Query.parse source = .ok query) : query.Paired :=
  (read_derives (parse_eq_ok.mp success)).paired paired

end HtmlFragments
