import HtmlFragments.Proofs.Document.Shape
import HtmlFragments.Proofs.Selector.Canonical
import HtmlFragments.Proofs.Selector.Position

/-! # Names of documents in queries

Documents and queries take names from different classes of units. A tag name may hold `.` and `:`,
which a query identifier may not, since in a query `.` starts a class. Main result: the tag of an
element that was read is a query for exactly that tag unless it holds one of the two, and then no
query asks for it; every attribute whose name is made of identifier units has a query as well. -/
set_option autoImplicit false

namespace HtmlFragments

open Markup.Grammar (IsTagName)

/-! ## The elements of a shaped forest -/

namespace Node

variable {permits : Text → Text → Prop} {nodes : List Node} {element : Element}

theorem toNode_of_element? {node : Node} (shows : node.element? = some element) :
    element.toNode = node := by
  cases node with
  | text value => cases shows
  | element tag attributes children =>
    cases shows
    rfl

theorem AllShaped.childAt? {index : Nat} (shaped : AllShaped permits nodes)
    (atIndex : Node.childAt? nodes index = some element) : element.toNode.Shaped permits := by
  obtain ⟨node, standing, shows⟩ := Option.bind_eq_some_iff.mp atIndex
  rw [toNode_of_element? shows]
  exact allShaped_iff.mp shaped node (List.mem_of_getElem? standing)

theorem Shaped.descend {above : Element} {position : Position}
    (shaped : above.toNode.Shaped permits) (found : above.descend position = some element) :
    element.toNode.Shaped permits := by
  induction position generalizing above with
  | nil =>
    cases found
    exact shaped
  | cons index rest ih =>
    obtain ⟨child, atIndex, reached⟩ := Option.bind_eq_some_iff.mp found
    obtain ⟨_, _, _, _, inside⟩ := shaped
    exact ih (inside.childAt? atIndex) reached

/-- Every element of a shaped forest has the shape, at whatever depth it stands. -/
theorem AllShaped.elementAt? {position : Position} (shaped : AllShaped permits nodes)
    (found : Node.elementAt? nodes position = some element) : element.toNode.Shaped permits := by
  cases position with
  | nil => cases found
  | cons index rest =>
    obtain ⟨child, atIndex, reached⟩ := Option.bind_eq_some_iff.mp found
    exact Shaped.descend (shaped.childAt? atIndex) reached

end Node

/-! ## The two classes of units -/

/-- Of the units of a tag name, only `.` and `:` are not those of an identifier. -/
theorem CodeUnit.isIdentifierUnit_iff {unit : CodeUnit} (inName : isNameUnit unit = true) :
    isIdentifierUnit unit = true ↔ unit ≠ 0x2E ∧ unit ≠ 0x3A := by
  constructor
  · intro identifier
    constructor
    · rintro rfl
      cases identifier
    · rintro rfl
      cases identifier
  · rintro ⟨noDot, noColon⟩
    simpa [isNameUnit, noDot, noColon] using inName

theorem Markup.Grammar.IsTagName.identifier_iff {tag : Text} (isName : IsTagName tag) :
    Query.Grammar.Identifier tag ↔ 0x2E ∉ tag ∧ 0x3A ∉ tag := by
  have inName := Markup.allOf_of_isTagName isName
  have filled : tag ≠ [] := by
    rintro rfl
    exact isName
  constructor
  · intro identifier
    exact ⟨identifier.not_mem rfl, identifier.not_mem rfl⟩
  · rintro ⟨noDot, noColon⟩
    refine ⟨filled, fun unit member => ?_⟩
    rw [CodeUnit.isIdentifierUnit_iff (inName unit member)]
    exact ⟨ne_of_mem_of_not_mem member noDot, ne_of_mem_of_not_mem member noColon⟩

/-! ## Queries for one name -/

namespace Query

def forTag (tag : Text) : Query := .simple { tag := some tag }

def forAttribute (pair : Attribute) : Query := .simple { attributes := [pair] }

theorem text_forTag (tag : Text) : (forTag tag).text = tag := List.append_nil tag

theorem text_forAttribute (pair : Attribute) :
    (forAttribute pair).text = attributeTestText pair := by
  have filled : attributeTestText pair ≠ [] := by
    simp [attributeTestText, Text.ofString, Text.encode]
  simp [forAttribute, text, Selector.text, Selector.conditionsText, filled]

theorem canonical_forTag {tag : Text} :
    (forTag tag).Canonical ↔ Grammar.Identifier tag := by
  constructor
  · intro writable
    exact writable.tag tag rfl
  · intro identifier
    refine ⟨?_, nofun, nofun, nofun⟩
    intro other same
    rwa [← Option.some.inj same]

theorem canonical_forAttribute {pair : Attribute} :
    (forAttribute pair).Canonical ↔ pair.Writable := by
  constructor
  · intro writable
    exact writable.attributes pair (List.mem_singleton_self pair)
  · intro writable
    exact ⟨nofun, nofun, nofun, List.forall_mem_singleton.mpr writable⟩

theorem parse_forTag {tag : Text} (identifier : Grammar.Identifier tag) :
    parse tag = .ok (forTag tag) := by
  have parsed := parse_text (canonical_forTag.mpr identifier)
  rwa [text_forTag] at parsed

theorem parse_forAttribute {pair : Attribute} (writable : pair.Writable) :
    parse (attributeTestText pair) = .ok (forAttribute pair) := by
  have parsed := parse_text (canonical_forAttribute.mpr writable)
  rwa [text_forAttribute] at parsed

end Query

/-! ## The names of a document that was read -/

/-- Main result. A tag is a query for exactly itself unless it holds a `.` or a `:`, and then no
text at all is such a query. An attribute whose name is made of identifier units and whose value can be
quoted is found by its own test, and with a `.` or a `:` in its name by no text. -/
theorem Document.parse_names {source : Text} {document : Document} {position : Position}
    {element : Element} (success : parse source = .ok document)
    (present : document.elementAt? position = some element) :
    (0x2E ∉ element.tag ∧ 0x3A ∉ element.tag →
        Query.parse element.tag = .ok (.forTag element.tag)) ∧
      (0x2E ∈ element.tag ∨ 0x3A ∈ element.tag →
        ∀ text, Query.parse text ≠ .ok (.forTag element.tag)) ∧
      ∀ pair ∈ element.attributes, ¬(0x22 ∈ pair.value ∧ 0x27 ∈ pair.value) →
        (Text.AllOf CodeUnit.isIdentifierUnit pair.name →
          Query.parse (attributeTestText pair) = .ok (.forAttribute pair)) ∧
        (0x2E ∈ pair.name ∨ 0x3A ∈ pair.name →
          ∀ text, Query.parse text ≠ .ok (.forAttribute pair)) := by
  have shaped := shaped_of_readNodes (parse_eq_ok.mp success)
  obtain ⟨isName, names, _, _, _⟩ := shaped.elementAt? present
  refine ⟨?_, ?_, ?_⟩
  · intro plain
    exact Query.parse_forTag (isName.identifier_iff.mpr plain)
  · intro special text parsed
    have identifier := Query.canonical_forTag.mp (Query.canonical_of_parse parsed)
    obtain ⟨noDot, noColon⟩ := isName.identifier_iff.mp identifier
    exact special.elim noDot noColon
  · intro pair member quotable
    refine ⟨?_, ?_⟩
    · intro units
      exact Query.parse_forAttribute ⟨⟨(names pair member).1, units⟩, quotable⟩
    · intro special text parsed
      have writable := Query.canonical_forAttribute.mp (Query.canonical_of_parse parsed)
      exact special.elim (writable.name.not_mem rfl) (writable.name.not_mem rfl)

/-- The inner element is found by its tag, and its attribute `q` between single quotes. Nothing asks
for the tag of the outer one or for `x.y`. -/
theorem Document.parse_names_nested :
    let source := Text.ofString "<svg:a>t<b q='\"' x.y=1></b></svg:a>"
    let quoted : Attribute := ⟨Text.ofString "q", Text.ofString "\""⟩
    let dotted : Attribute := ⟨Text.ofString "x.y", Text.ofString "1"⟩
    let inner : Element := ⟨Text.ofString "b", [quoted, dotted], []⟩
    let outer : Element := ⟨Text.ofString "svg:a", [], [.text (Text.ofString "t"), inner.toNode]⟩
    let document : Document := ⟨[outer.toNode]⟩
    (parse source = .ok document ∧ document.elementAt? [0] = some outer ∧
        document.elementAt? [0, 1] = some inner) ∧
      (∀ text, Query.parse text ≠ .ok (.forTag outer.tag)) ∧
      Query.parse inner.tag = .ok (.forTag inner.tag) ∧
      attributeTestText quoted = Text.ofString "[q='\"']" ∧
      Query.parse (attributeTestText quoted) = .ok (.forAttribute quoted) ∧
      ∀ text, Query.parse text ≠ .ok (.forAttribute dotted) := by
  intro source quoted dotted inner outer document
  have success : parse source = .ok document := by decide +kernel
  have presentOuter : document.elementAt? [0] = some outer := by decide +kernel
  have presentInner : document.elementAt? [0, 1] = some inner := by decide +kernel
  obtain ⟨_, noQuery, _⟩ := parse_names success presentOuter
  obtain ⟨asTag, _, asAttribute⟩ := parse_names success presentInner
  refine ⟨⟨success, presentOuter, presentInner⟩, noQuery (by decide), asTag (by decide), rfl,
    ?_, ?_⟩
  · exact (asAttribute quoted (by decide) (by decide)).1 (List.all_eq_true.mp (by decide))
  · exact (asAttribute dotted (by decide) (by decide)).2 (by decide)

/-- A name with a `.` in it is read as a tag and a class. -/
theorem Document.not_forall_parse_names :
    ¬∀ (source : Text) (document : Document) (position : Position) (element : Element),
      parse source = .ok document → document.elementAt? position = some element →
        Query.parse element.tag = .ok (.forTag element.tag) ∧
          ∀ pair ∈ element.attributes, ¬(0x22 ∈ pair.value ∧ 0x27 ∈ pair.value) →
            Query.parse (attributeTestText pair) = .ok (.forAttribute pair) := by
  intro always
  let element : Element := ⟨Text.ofString "a.b", [], []⟩
  have success : parse (Text.ofString "<a.b></a.b>") = .ok ⟨[element.toNode]⟩ := by decide +kernel
  have parsed := (always _ _ [0] element success (by decide +kernel)).1
  have split : Query.parse element.tag =
      .ok (.simple { tag := some (Text.ofString "a"), classes := [Text.ofString "b"] }) := by
    decide +kernel
  rw [split] at parsed
  exact absurd parsed (by decide)

end HtmlFragments
