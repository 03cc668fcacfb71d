import HtmlFragments.Proofs.Selector.Acceptance
import HtmlFragments.Proofs.Selector.Chain
import HtmlFragments.Selector.Basic

/-! # Canonical queries

Reading joins from left to right and takes names apart, so that not every query is read from some
text. Main result: the queries that are read are the canonical ones, and each of them is read back
from its own text. -/
set_option autoImplicit false

namespace HtmlFragments

structure Attribute.Writable (pair : Attribute) : Prop where
  name : Query.Grammar.Identifier pair.name
  value : ¬(0x22 ∈ pair.value ∧ 0x27 ∈ pair.value)

structure Selector.Writable (selector : Selector) : Prop where
  tag : ∀ tag, selector.tag = some tag → Query.Grammar.Identifier tag
  ids : ∀ value ∈ selector.ids, Query.Grammar.Identifier value
  classes : ∀ value ∈ selector.classes, Query.Grammar.Identifier value
  attributes : ∀ pair ∈ selector.attributes, pair.Writable

namespace Query

/-- On the right of every combination stands a selector and on its left no union, and on the right
of every union no further one. -/
def Canonical : Query → Prop
  | .simple selector => selector.Writable
  | .combined _ left right =>
    left.UnionFree ∧ (∃ selector, right = .simple selector) ∧ left.Canonical ∧ right.Canonical
  | .union left right => right.UnionFree ∧ left.Canonical ∧ right.Canonical

/-! ## What is read is canonical -/

theorem Grammar.Identifier.not_mem {name : Text} {unit : CodeUnit}
    (identifier : Grammar.Identifier name) (outside : CodeUnit.isIdentifierUnit unit = false) :
    unit ∉ name := by
  intro member
  have inside := identifier.2 unit member
  rw [outside] at inside
  cases inside

theorem Grammar.Value.one_quote {value written : Text} (writes : Grammar.Value value written) :
    ¬(0x22 ∈ value ∧ 0x27 ∈ value) := by
  rintro ⟨double, single⟩
  cases writes with
  | bare identifier => exact identifier.not_mem rfl double
  | doubleQuoted free => exact free double
  | singleQuoted free => exact free single

theorem Grammar.AttributeTest.writable {pair : Attribute} {test : Text}
    (derived : Grammar.AttributeTest pair test) : pair.Writable := by
  cases derived with
  | spaced _ identifier _ _ writes _ => exact ⟨identifier, writes.one_quote⟩

theorem Grammar.Conditions.writable {ids classes : List Text} {attributes : List Attribute}
    {text : Text} (row : Grammar.Conditions ids classes attributes text) :
    Selector.Writable { ids := ids, classes := classes, attributes := attributes } := by
  induction row with
  | none => exact ⟨nofun, nofun, nofun, nofun⟩
  | idIs identifier _ ih =>
    exact ⟨nofun, List.forall_mem_cons.mpr ⟨identifier, ih.ids⟩, ih.classes, ih.attributes⟩
  | classIs identifier _ ih =>
    exact ⟨nofun, ih.ids, List.forall_mem_cons.mpr ⟨identifier, ih.classes⟩, ih.attributes⟩
  | attributeIs tested _ ih =>
    exact ⟨nofun, ih.ids, ih.classes, List.forall_mem_cons.mpr ⟨tested.writable, ih.attributes⟩⟩

theorem Grammar.Compound.writable {selector : Selector} {text : Text}
    (derived : Grammar.Compound selector text) : selector.Writable := by
  cases derived with
  | tagged identifier row =>
    refine ⟨?_, row.writable.ids, row.writable.classes, row.writable.attributes⟩
    intro tag same
    cases same
    exact identifier
  | starred row => exact row.writable
  | untagged _ row => exact row.writable

theorem Grammar.Complex.canonical {query : Query} {text : Text}
    (derived : Grammar.Complex query text) : query.UnionFree ∧ query.Canonical := by
  induction derived with
  | single compound => exact ⟨trivial, compound.writable⟩
  | joined _ _ compound ih =>
    exact ⟨⟨ih.1, trivial⟩, ih.1, ⟨_, rfl⟩, ih.2, compound.writable⟩

theorem Grammar.Alternatives.canonical {query : Query} {text : Text}
    (derived : Grammar.Alternatives query text) : query.Canonical := by
  induction derived with
  | single complex => exact complex.canonical.2
  | united _ _ _ complex ih => exact ⟨complex.canonical.1, ih, complex.canonical.2⟩

theorem canonical_of_parse {source : Text} {query : Query} (success : parse source = .ok query) :
    query.Canonical := by
  cases read_derives (parse_eq_ok.mp success) with
  | padded _ alternatives _ => exact alternatives.canonical

/-! ## What is canonical is spelled by its text -/

theorem attributeTest_text {pair : Attribute} (writable : pair.Writable) :
    ∃ test, Grammar.AttributeTest pair test ∧ attributeTestText pair = 0x5B :: test := by
  obtain ⟨name, value⟩ := pair
  have nothing : Text.Blank [] := Text.allOf_nil _
  have spelled : ∀ written, Grammar.Value value written →
      Grammar.AttributeTest ⟨name, value⟩ (name ++ 0x3D :: (written ++ [0x5D])) :=
    fun written writes => .spaced nothing writable.name nothing nothing writes nothing
  by_cases double : (0x22 : CodeUnit) ∈ value
  · have single : (0x27 : CodeUnit) ∉ value := fun other => writable.value ⟨double, other⟩
    refine ⟨_, spelled _ (.singleQuoted single), ?_⟩
    simp [attributeTestText, double, Text.ofString, Text.encode]
  · refine ⟨_, spelled _ (.doubleQuoted double), ?_⟩
    simp [attributeTestText, double, Text.ofString, Text.encode]

theorem conditions_attributes {attributes : List Attribute}
    (writable : ∀ pair ∈ attributes, pair.Writable) :
    Grammar.Conditions [] [] attributes (attributes.flatMap attributeTestText) := by
  induction attributes with
  | nil => exact .none
  | cons pair others ih =>
    obtain ⟨first, later⟩ := List.forall_mem_cons.mp writable
    obtain ⟨test, derived, written⟩ := attributeTest_text first
    rw [List.flatMap_cons, written]
    exact .attributeIs derived (ih later)

theorem conditions_classes {classes : List Text} {attributes : List Attribute} {rest : Text}
    (named : ∀ value ∈ classes, Grammar.Identifier value)
    (row : Grammar.Conditions [] [] attributes rest) :
    Grammar.Conditions [] classes attributes
      (classes.flatMap (fun value => 0x2E :: value) ++ rest) := by
  induction classes with
  | nil => exact row
  | cons name others ih =>
    obtain ⟨first, later⟩ := List.forall_mem_cons.mp named
    rw [List.flatMap_cons, List.append_assoc, List.cons_append]
    exact .classIs first (ih later)

theorem conditions_ids {ids classes : List Text} {attributes : List Attribute} {rest : Text}
    (named : ∀ value ∈ ids, Grammar.Identifier value)
    (row : Grammar.Conditions [] classes attributes rest) :
    Grammar.Conditions ids classes attributes
      (ids.flatMap (fun value => 0x23 :: value) ++ rest) := by
  induction ids with
  | nil => exact row
  | cons name others ih =>
    obtain ⟨first, later⟩ := List.forall_mem_cons.mp named
    rw [List.flatMap_cons, List.append_assoc, List.cons_append]
    exact .idIs first (ih later)

theorem conditions_text {selector : Selector} (writable : selector.Writable) :
    Grammar.Conditions selector.ids selector.classes selector.attributes
      selector.conditionsText := by
  rw [Selector.conditionsText, List.append_assoc]
  exact conditions_ids writable.ids
    (conditions_classes writable.classes (conditions_attributes writable.attributes))

theorem compound_text {selector : Selector} (writable : selector.Writable) :
    Grammar.Compound selector selector.text := by
  have row := conditions_text writable
  obtain ⟨tag, ids, classes, attributes⟩ := selector
  cases tag with
  | some name => exact .tagged (writable.tag name rfl) row
  | none =>
    rw [Selector.text]
    by_cases empty : Selector.conditionsText ⟨none, ids, classes, attributes⟩ = []
    · rw [empty] at row ⊢
      exact .starred row
    · simp only [List.isEmpty_iff, empty, if_false]
      exact .untagged empty row

theorem separator_text (combinator : Combinator) :
    Grammar.Separator combinator combinator.text := by
  have space : Text.Blank [0x20] := List.all_eq_true.mp (by decide)
  cases combinator with
  | descendant => exact .descendant (by decide) space
  | child => exact .child space space

theorem complex_text {query : Query} (canonical : query.Canonical) (unionFree : query.UnionFree) :
    Grammar.Complex query query.text := by
  induction query with
  | simple selector => exact .single (compound_text canonical)
  | combined combinator left right ihLeft _ =>
    obtain ⟨unionFreeLeft, ⟨selector, rfl⟩, canonicalLeft, writable⟩ := canonical
    rw [text, List.append_assoc]
    exact .joined (ihLeft canonicalLeft unionFreeLeft) (separator_text combinator)
      (compound_text writable)
  | union left right _ _ => exact unionFree.elim

theorem alternatives_text {query : Query} (canonical : query.Canonical) :
    Grammar.Alternatives query query.text := by
  induction query with
  | simple selector => exact .single (complex_text canonical trivial)
  | combined combinator left right _ _ =>
    have unionFreeRight : right.UnionFree := by
      obtain ⟨_, ⟨selector, rfl⟩, _, _⟩ := canonical
      trivial
    exact .single (complex_text canonical ⟨canonical.1, unionFreeRight⟩)
  | union left right ihLeft _ =>
    obtain ⟨unionFree, canonicalLeft, canonicalRight⟩ := canonical
    have space : Text.Blank [0x20] := List.all_eq_true.mp (by decide)
    rw [text, List.append_assoc]
    exact .united (ihLeft canonicalLeft) (Text.allOf_nil _) space
      (complex_text canonicalRight unionFree)

theorem parse_text {query : Query} (canonical : query.Canonical) :
    parse query.text = .ok query := by
  have nothing : Text.Blank [] := Text.allOf_nil _
  have spells : Grammar.Spells query ([] ++ (query.text ++ [])) :=
    .padded nothing (alternatives_text canonical) nothing
  rw [List.nil_append, List.append_nil] at spells
  exact parse_eq_ok.mpr (read_of_spells spells)

/-- Main result. The canonical queries are what reading gives, each of them is read back from its
text, and so no two of them have one text. -/
theorem canonical_iff_parse :
    (∀ query : Query, query.Canonical ↔ ∃ source, parse source = .ok query) ∧
    (∀ query : Query, query.Canonical → parse query.text = .ok query) ∧
    ∀ query other : Query, query.Canonical → other.Canonical → query.text = other.text →
      query = other := by
  refine ⟨?_, fun query => parse_text, ?_⟩
  · intro query
    constructor
    · intro canonical
      exact ⟨query.text, parse_text canonical⟩
    · rintro ⟨source, success⟩
      exact canonical_of_parse success
  · intro query other canonical otherCanonical same
    have parsed := parse_text canonical
    rw [same, parse_text otherCanonical] at parsed
    exact (Except.ok.inj parsed).symm

end Query
end HtmlFragments
