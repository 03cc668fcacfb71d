import HtmlFragments.Selector.Basic

/-! # Searching trees

Results come in the order in which the query produces them; nothing is sorted and nothing is
removed. Below an element that is accepted no further one is sought for the same selector. -/
set_option autoImplicit false

namespace HtmlFragments

/-- Where a query looks for the element that its leftmost selector accepts. -/
inductive Scope where
  /-- At the given element alone. -/
  | level
  /-- At the given element and, if it is not accepted, inside it. -/
  | subtree
deriving DecidableEq, Repr

def Combinator.scope : Combinator → Scope
  | .descendant => .subtree
  | .child => .level

namespace Node

mutual

/-- The accepted elements of a tree that lie in no other accepted one, in document order. -/
def outermost (accepts : Element → Bool) : Node → List Element
  | .text _ => []
  | .element tag attributes children =>
    if accepts ⟨tag, attributes, children⟩ then [⟨tag, attributes, children⟩]
    else outermostAmong accepts children

def outermostAmong (accepts : Element → Bool) : List Node → List Element
  | [] => []
  | node :: rest => outermost accepts node ++ outermostAmong accepts rest

end

end Node

namespace Query

def find (query : Query) (scope : Scope) (element : Element) : List Element :=
  match query with
  | .simple selector =>
    match scope with
    | .level => if selector.accepts element then [element] else []
    | .subtree => element.toNode.outermost selector.accepts
  | .combined combinator left right =>
    (Node.elements ((left.find scope element).flatMap Element.children)).flatMap
      (right.find combinator.scope)
  | .union left right => left.find scope element ++ right.find scope element

def findAmong (query : Query) (scope : Scope) (nodes : List Node) : List Element :=
  (Node.elements nodes).flatMap (query.find scope)

def search (query : Query) (document : Document) : List Element :=
  query.findAmong .subtree document.children

/-- The right side of a combination starts anew among the children of each match of the left. -/
theorem find_combined (combinator : Combinator) (left right : Query) (scope : Scope)
    (element : Element) :
    (combined combinator left right).find scope element =
      (left.find scope element).flatMap fun found =>
        right.findAmong combinator.scope found.children := by
  rw [find, Node.elements, List.filterMap_flatMap, List.flatMap_assoc]
  rfl

theorem findAmong_combined (combinator : Combinator) (left right : Query) (scope : Scope)
    (nodes : List Node) :
    (combined combinator left right).findAmong scope nodes =
      (left.findAmong scope nodes).flatMap fun found =>
        right.findAmong combinator.scope found.children := by
  rw [findAmong, findAmong, List.flatMap_assoc]
  exact congrArg (Node.elements nodes).flatMap
    (funext (find_combined combinator left right scope))

end Query
end HtmlFragments
