import Mathlib.Data.List.Basic
import HtmlFragments.Proofs.Document.RoundTrip
import HtmlFragments.Proofs.Document.Shape
import HtmlFragments.Proofs.Selector.Outermost

/-! # Searching a normalised document

A document that was read, written and read again has its neighbouring text merged, and is otherwise
the same. Selectors look at tags and attributes and searches go from element to element, so a query
finds the merged forms of the elements that it found before. Main result: what a search prints is
the same for a document and its normalised form. -/
set_option autoImplicit false

namespace HtmlFragments

def Element.merged (element : Element) : Element :=
  ⟨element.tag, element.attributes, Node.mergedAll element.children⟩

def Document.merged (document : Document) : Document := ⟨Node.mergedAll document.children⟩

/-! ## Merging keeps the elements and their markup -/

namespace Node

theorem elements_joinText (node : Node) (rest : List Node) :
    elements (joinText node rest) = elements (node :: rest) := by
  unfold joinText
  split
  · rfl
  · rfl

theorem elements_mergedAll (nodes : List Node) :
    elements (mergedAll nodes) = (elements nodes).map Element.merged := by
  induction nodes with
  | nil => rfl
  | cons node rest ih =>
    have later : elements (merged node :: mergedAll rest) =
        (merged node).element?.toList ++ (elements rest).map Element.merged := by
      rw [← ih]
      cases node <;> rfl
    rw [mergedAll, elements_joinText, later]
    cases node <;> rfl

end Node

theorem Element.markup_merged (element : Element) : element.merged.markup = element.markup := by
  simp only [Element.markup, Node.markup, Element.toNode, Element.merged, Node.markupIn,
    Node.contentMarkup_mergedAll]

theorem Document.markup_merged (document : Document) :
    document.merged.markup = document.markup :=
  Node.contentMarkup_mergedAll false document.children

/-! ## Merging passes through a search -/

theorem Selector.accepts_merged (selector : Selector) (element : Element) :
    selector.accepts element.merged = selector.accepts element := rfl

theorem Node.outermost_merged (selector : Selector) (element : Element) :
    outermost selector.accepts element.merged.toNode =
      (outermost selector.accepts element.toNode).map Element.merged := by
  revert element
  refine Element.induct_children ?_
  intro element ih
  rw [outermost_toNode, outermost_toNode, selector.accepts_merged]
  split
  · rfl
  · rw [outermostAmong_eq, outermostAmong_eq, Element.merged, elements_mergedAll,
      List.flatMap_map, List.map_flatMap]
    exact List.flatMap_congr ih

namespace Query

theorem findAmong_mergedAll {query : Query} {scope : Scope}
    (same : ∀ element, query.find scope element.merged =
      (query.find scope element).map Element.merged) (nodes : List Node) :
    query.findAmong scope (Node.mergedAll nodes) =
      (query.findAmong scope nodes).map Element.merged := by
  rw [findAmong, findAmong, Node.elements_mergedAll, List.flatMap_map, List.map_flatMap]
  exact List.flatMap_congr fun element _ => same element

theorem find_merged (query : Query) (scope : Scope) (element : Element) :
    query.find scope element.merged = (query.find scope element).map Element.merged := by
  induction query generalizing scope element with
  | simple selector =>
    cases scope with
    | level =>
      rw [find, find, selector.accepts_merged]
      split
      · rfl
      · rfl
    | subtree => exact Node.outermost_merged selector element
  | combined combinator left right ihLeft ihRight =>
    rw [find_combined, find_combined, ihLeft, List.flatMap_map, List.map_flatMap]
    exact List.flatMap_congr fun found _ =>
      findAmong_mergedAll (ihRight combinator.scope) found.children
  | union left right ihLeft ihRight => rw [find, find, ihLeft, ihRight, List.map_append]

theorem search_merged (query : Query) (document : Document) :
    query.search document.merged = (query.search document).map Element.merged :=
  findAmong_mergedAll (query.find_merged .subtree) document.children

end Query

/-! ## Reading the markup of what was read -/

/-- Without neighbouring text there is nothing to merge. -/
theorem Document.parse_markup_of_separated {document : Document}
    (wellFormed : Node.AllWellFormed document.children)
    (separated : Node.AllSeparated false document.children)
    (undotted : CodeUnit.dottedCapital ∉ document.markup)
    (unmarked : document.markup.head? ≠ some 0xFEFF) :
    Document.parse document.markup = .ok document :=
  Markup.parse_of_undotted (.unmarked unmarked
    (content_markup _ wellFormed separated [] [] List.not_mem_nil undotted))

/-- Main result. Unless a dotted capital I or a byte order mark comes in the way, the markup of a
document that was read is read again, has itself as its markup, and prints the same for every
query. -/
theorem Document.parse_markup_search {source : Text} {document : Document}
    (success : parse source = .ok document) (undotted : CodeUnit.dottedCapital ∉ source)
    (undottedMarkup : CodeUnit.dottedCapital ∉ document.markup)
    (unmarked : document.markup.head? ≠ some 0xFEFF) :
    ∃ normal, parse document.markup = .ok normal ∧ normal.markup = document.markup ∧
      ∀ query : Query,
        (query.search normal).map Element.markup = (query.search document).map Element.markup := by
  have wellFormed := allWellFormed_of_parse undotted success
  refine ⟨document.merged, ?_, document.markup_merged, ?_⟩
  · rw [← document.markup_merged] at undottedMarkup unmarked ⊢
    exact parse_markup_of_separated (Node.allWellFormed_mergedAll wellFormed)
      (Node.allSeparated_mergedAll document.children) undottedMarkup unmarked
  · intro query
    rw [query.search_merged, List.map_map]
    exact List.map_congr_left fun element _ => element.markup_merged

/-- A comment parts the text of the paragraph. It is gone from the markup, and the texts on both
sides of it are one. -/
theorem Document.parse_markup_search_comment :
    let source := Text.ofString "<p>a<!--x-->b<i>c</i></p>"
    let document : Document := ⟨[.element (Text.ofString "p") []
      [.text (Text.ofString "a"), .text (Text.ofString "b"),
        .element (Text.ofString "i") [] [.text (Text.ofString "c")]]]⟩
    (parse source = .ok document ∧ CodeUnit.dottedCapital ∉ source ∧
        CodeUnit.dottedCapital ∉ document.markup ∧ document.markup.head? ≠ some 0xFEFF) ∧
      parse document.markup ≠ .ok document ∧
      ∃ normal, parse document.markup = .ok normal ∧ normal.markup = document.markup ∧
        ∀ query : Query,
          (query.search normal).map Element.markup =
            (query.search document).map Element.markup := by
  intro source document
  have success : parse source = .ok document := by decide +kernel
  have undotted : CodeUnit.dottedCapital ∉ source := by decide +kernel
  have undottedMarkup : CodeUnit.dottedCapital ∉ document.markup := by decide +kernel
  have unmarked : document.markup.head? ≠ some 0xFEFF := by decide +kernel
  exact ⟨⟨success, undotted, undottedMarkup, unmarked⟩, by decide +kernel,
    parse_markup_search success undotted undottedMarkup unmarked⟩

end HtmlFragments
