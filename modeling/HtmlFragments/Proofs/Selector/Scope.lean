import Mathlib.Data.List.Flatten
import HtmlFragments.Proofs.Selector.Chain

/-! # What the scope of a query changes

The scope says where the element that the leftmost selector accepts is sought; every further
selector has the scope of its combinator. Main result: the results at the given level alone are a
subsequence of the results in the subtree. Without unions the two agree if the leftmost selector
accepts the given element, and otherwise there are none at the level, and those in the subtree are
those among the children. -/
set_option autoImplicit false

namespace HtmlFragments.Query

def leftmost : Query → Selector
  | .simple selector => selector
  | .combined _ left _ => left.leftmost
  | .union left _ => left.leftmost

/-- A scope that covers more adds results and leaves the others in their order. -/
theorem find_level_sublist (query : Query) (element : Element) :
    (query.find .level element).Sublist (query.find .subtree element) := by
  induction query with
  | simple selector =>
    simp only [find, Node.outermost_toNode]
    split
    · exact List.Sublist.refl _
    · exact List.nil_sublist _
  | combined combinator left right ihLeft _ =>
    rw [find_combined, find_combined]
    exact ihLeft.flatMap _
  | union left right ihLeft ihRight => exact ihLeft.append ihRight

section

variable {query : Query} (unionFree : query.UnionFree) {element : Element}

include unionFree

theorem find_subtree_of_accepts (accepts : query.leftmost.accepts element = true) :
    query.find .subtree element = query.find .level element := by
  induction query with
  | simple selector =>
    have here : selector.accepts element = true := accepts
    simp only [find, Node.outermost_toNode, here, if_true]
  | combined combinator left right ihLeft _ =>
    rw [find_combined, find_combined, ihLeft unionFree.1 accepts]
  | union left right _ _ => exact unionFree.elim

theorem find_level_of_rejects (rejects : query.leftmost.accepts element = false) :
    query.find .level element = [] := by
  induction query with
  | simple selector =>
    have here : selector.accepts element = false := rejects
    simp only [find, here, Bool.false_eq_true, if_false]
  | combined combinator left right ihLeft _ =>
    rw [find_combined, ihLeft unionFree.1 rejects, List.flatMap_nil]
  | union left right _ _ => exact unionFree.elim

theorem find_subtree_of_rejects (rejects : query.leftmost.accepts element = false) :
    query.find .subtree element = query.findAmong .subtree element.children := by
  induction query with
  | simple selector =>
    have here : selector.accepts element = false := rejects
    rw [findAmong_simple_subtree]
    simp only [find, Node.outermost_toNode, here, Bool.false_eq_true, if_false]
  | combined combinator left right ihLeft _ =>
    rw [find_combined, ihLeft unionFree.1 rejects, findAmong_combined]
  | union left right _ _ => exact unionFree.elim

end

/-- Main result: what the scope changes at an element, for any query and for one without unions. -/
theorem find_scope (query : Query) (element : Element) :
    (query.find .level element).Sublist (query.find .subtree element) ∧
      (query.UnionFree →
        (query.leftmost.accepts element = true →
          query.find .subtree element = query.find .level element) ∧
        (query.leftmost.accepts element = false →
          query.find .level element = [] ∧
            query.find .subtree element = query.findAmong .subtree element.children)) := by
  refine ⟨query.find_level_sublist element, fun unionFree => ⟨?_, ?_⟩⟩
  · intro accepts
    exact find_subtree_of_accepts unionFree accepts
  · intro rejects
    exact ⟨find_level_of_rejects unionFree rejects, find_subtree_of_rejects unionFree rejects⟩

/-- The query `a>(b c)` at an `a`, and inside it at an element that is none. -/
theorem find_scope_nested :
    let tagged (tag : String) : Query := .simple { tag := some (Text.ofString tag) }
    let query : Query :=
      .combined .child (tagged "a") (.combined .descendant (tagged "b") (tagged "c"))
    let leaf : Node := .element (Text.ofString "c") [] []
    let inner : Element :=
      ⟨Text.ofString "a", [], [.element (Text.ofString "b") [] [.text [0x78], leaf]]⟩
    let outer : Element := ⟨Text.ofString "p", [], [leaf, inner.toNode]⟩
    (query.UnionFree ∧ query.leftmost.accepts inner = true ∧
        query.leftmost.accepts outer = false) ∧
      query.find .level inner = [⟨Text.ofString "c", [], []⟩] ∧
      query.find .subtree inner = query.find .level inner ∧
      query.find .level outer = [] ∧
      query.find .subtree outer = query.findAmong .subtree outer.children := by
  intro tagged query leaf inner outer
  have unionFree : query.UnionFree := ⟨trivial, trivial, trivial⟩
  have accepts : query.leftmost.accepts inner = true := by decide
  have rejects : query.leftmost.accepts outer = false := by decide
  have atInner := ((query.find_scope inner).2 unionFree).1 accepts
  have atOuter := ((query.find_scope outer).2 unionFree).2 rejects
  exact ⟨⟨unionFree, accepts, rejects⟩, by decide +kernel, atInner, atOuter⟩

example :
    let query : Query :=
      .union (.simple { tag := some (Text.ofString "a") })
        (.simple { tag := some (Text.ofString "b") })
    let element : Element :=
      ⟨Text.ofString "a", [], [.element (Text.ofString "b") [] []]⟩
    query.leftmost.accepts element = true ∧
      query.find .subtree element ≠ query.find .level element := by
  decide +kernel

end HtmlFragments.Query
