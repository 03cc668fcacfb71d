import Mathlib.Data.List.Basic
import HtmlFragments.Proofs.Selector.Chain

/-! # Where results stand

A search gives elements and does not say where they stand. The same search over positions does: it
takes the same steps in the same order, with a position in place of each element. For a query
without unions its positions are the ones that the chain selects, each once. -/
set_option autoImplicit false

namespace HtmlFragments

/-! ## Elements directly inside -/

namespace Node

def elementPositions (nodes : List Node) : List Position := positionsAmong (fun _ => [[]]) nodes

theorem elementPositions_located (nodes : List Node) :
    (elementPositions nodes).map (elementAt? nodes) = (elements nodes).map some := by
  have single := positionsAmong_elements (fun _ => [[]]) (fun element => [element]) nodes
    fun element _ => rfl
  rw [List.flatMap_singleton'] at single
  exact single

theorem eq_singleton_of_mem_elementPositions {nodes : List Node} {position : Position}
    (member : position ∈ elementPositions nodes) : ∃ index, position = [index] := by
  obtain ⟨index, rest, _, rfl, _, here⟩ := (mem_positionsAmong _ nodes position).mp member
  rw [List.mem_singleton.mp here]
  exact ⟨index, rfl⟩

theorem positionsAmong_eq_flatMap (inside : Element → List Position) (nodes : List Node) :
    positionsAmong inside nodes = (elementPositions nodes).flatMap fun position =>
      (elementAt? nodes position).elim [] fun element => (inside element).map (position ++ ·) := by
  induction nodes with
  | nil => rfl
  | cons node nodes ih =>
    have shifted : (positionsAmong inside nodes).map shift =
        ((elementPositions nodes).map shift).flatMap fun position =>
          (elementAt? (node :: nodes) position).elim [] fun element =>
            (inside element).map (position ++ ·) := by
      rw [ih, List.map_flatMap, List.flatMap_map]
      refine List.flatMap_congr ?_
      intro position member
      obtain ⟨index, rfl⟩ := eq_singleton_of_mem_elementPositions member
      have same : elementAt? (node :: nodes) (shift [index]) = elementAt? nodes [index] := rfl
      rw [same]
      cases elementAt? nodes [index] with
      | none => rfl
      | some element => simp [shift]
    have first : elementPositions (node :: nodes) =
        (node.element?.elim [] fun _ => [[]]).map (0 :: ·) ++ (elementPositions nodes).map shift :=
      positionsAmong_cons _ node nodes
    rw [positionsAmong_cons, shifted, first, List.flatMap_append]
    cases node with
    | text value => rfl
    | element tag attributes children => simp [element?, elementAt?, childAt?, Element.descend]

end Node

namespace Document

def positionsInside (document : Document) (above : Position) : List Position :=
  match document.elementAt? above with
  | none => []
  | some element => (Node.elementPositions element.children).map (above ++ ·)

variable {document : Document} {above : Position} {element : Element}

theorem positionsInside_eq (found : document.elementAt? above = some element) :
    document.positionsInside above =
      (Node.elementPositions element.children).map (above ++ ·) := by
  rw [positionsInside, found]

theorem elementAt?_inside (found : document.elementAt? above = some element)
    {inside : Position} (member : inside ∈ Node.elementPositions element.children) :
    document.elementAt? (above ++ inside) = Node.elementAt? element.children inside := by
  rw [elementAt?, Node.elementAt?_append found,
    element.descend_of_ne_nil (Node.ne_nil_of_mem_positionsAmong member)]

theorem positionsInside_located (found : document.elementAt? above = some element) :
    (document.positionsInside above).map document.elementAt? =
      (Node.elements element.children).map some := by
  rw [positionsInside_eq found, List.map_map, ← Node.elementPositions_located]
  exact List.map_congr_left fun inside member => elementAt?_inside found member

end Document

/-! ## The search over positions -/

namespace Selector

def positionsIn (selector : Selector) (scope : Scope) (element : Element) : List Position :=
  match scope with
  | .level => if selector.accepts element then [[]] else []
  | .subtree => Node.outermostPositions selector.accepts element.toNode

def positionsAt (selector : Selector) (document : Document) (scope : Scope)
    (position : Position) : List Position :=
  (document.elementAt? position).elim [] fun element =>
    (selector.positionsIn scope element).map (position ++ ·)

theorem positionsIn_located (selector : Selector) (scope : Scope) (element : Element) :
    (selector.positionsIn scope element).map element.descend =
      ((Query.simple selector).find scope element).map some := by
  cases scope with
  | level =>
    simp only [positionsIn, Query.find]
    split
    · rfl
    · rfl
  | subtree => exact Node.outermostPositions_elements selector.accepts element

end Selector

namespace Query

def positionsAt (query : Query) (document : Document) (scope : Scope) (position : Position) :
    List Position :=
  match query with
  | .simple selector => selector.positionsAt document scope position
  | .combined combinator left right =>
    ((left.positionsAt document scope position).flatMap document.positionsInside).flatMap
      (right.positionsAt document combinator.scope)
  | .union left right =>
    left.positionsAt document scope position ++ right.positionsAt document scope position

/-- Where the results of a search stand, in the order of the results. -/
def positions (query : Query) (document : Document) : List Position :=
  (Node.elementPositions document.children).flatMap (query.positionsAt document .subtree)

variable {document : Document}

theorem positionsAt_located (query : Query) (scope : Scope) {position : Position}
    {element : Element} (found : document.elementAt? position = some element) :
    (query.positionsAt document scope position).map document.elementAt? =
      (query.find scope element).map some := by
  induction query generalizing scope position element with
  | simple selector =>
    rw [positionsAt, Selector.positionsAt, found, Option.elim, List.map_map,
      ← selector.positionsIn_located]
    exact List.map_congr_left fun inside _ => Node.elementAt?_append found inside
  | combined combinator left right ihLeft ihRight =>
    rw [positionsAt, find_combined, List.flatMap_assoc]
    refine Document.located_flatMap (ihLeft scope found) ?_
    intro above outer foundOuter
    refine Document.located_flatMap (Document.positionsInside_located foundOuter) ?_
    intro next inner foundInner
    exact ihRight combinator.scope foundInner
  | union left right ihLeft ihRight =>
    rw [positionsAt, find, List.map_append, List.map_append, ihLeft scope found,
      ihRight scope found]

/-- The positions of a search are those of its results, one by one. -/
theorem positions_located (query : Query) (document : Document) :
    (query.positions document).map document.elementAt? = (query.search document).map some :=
  Document.located_flatMap (Node.elementPositions_located document.children)
    fun _ _ found => query.positionsAt_located .subtree found

end Query

/-! ## Positions along a chain -/

variable {document : Document}

theorem linkPositions_eq (combinator : Combinator) (selector : Selector) (element : Element) :
    linkPositions (combinator, selector) element =
      Node.positionsAmong (selector.positionsIn combinator.scope) element.children := by
  cases combinator with
  | descendant => exact Node.outermostPositionsAmong_eq _ _
  | child => rfl

theorem positionsInside_flatMap (combinator : Combinator) (selector : Selector)
    (above : Position) :
    (document.positionsInside above).flatMap (selector.positionsAt document combinator.scope) =
      positionsFrom document (combinator, selector) above := by
  cases found : document.elementAt? above with
  | none => rw [Document.positionsInside, positionsFrom, found]; rfl
  | some element =>
    rw [Document.positionsInside_eq found, positionsFrom_eq found, linkPositions_eq,
      Node.positionsAmong_eq_flatMap, List.map_flatMap, List.flatMap_map]
    refine List.flatMap_congr ?_
    intro inside member
    rw [Selector.positionsAt, Document.elementAt?_inside found member]
    cases Node.elementAt? element.children inside with
    | none => rfl
    | some inner => simp

theorem linkedTo_append (links further : List (Combinator × Selector))
    (above position : Position) :
    LinkedTo document (links ++ further) above position ↔
      ∃ middle, LinkedTo document links above middle ∧
        LinkedTo document further middle position := by
  induction links generalizing above with
  | nil =>
    constructor
    · intro linked
      exact ⟨above, .arrived above, linked⟩
    · rintro ⟨middle, arrived, linked⟩
      cases arrived
      exact linked
  | cons link links ih =>
    constructor
    · intro linked
      cases linked with
      | through leads linked =>
        obtain ⟨middle, first, second⟩ := (ih _).mp linked
        exact ⟨middle, .through leads first, second⟩
    · rintro ⟨middle, first, second⟩
      cases first with
      | through leads first => exact .through leads ((ih _).mpr ⟨middle, first, second⟩)

/-- What enumerates the wanted positions leads, through a query without unions among the elements
inside, to what enumerates the positions that its chain links to them. -/
theorem Enumerates.find {Wanted : Position → Prop} {positions : List Position}
    {elements : List Element} (enumerates : Enumerates document Wanted positions elements)
    (combinator : Combinator) {query : Query} {chain : Chain}
    (reads : query.chain? = some chain) :
    Enumerates document
      (fun position => ∃ above, Wanted above ∧
        LinkedTo document ((combinator, chain.first) :: chain.links) above position)
      ((positions.flatMap document.positionsInside).flatMap
        (query.positionsAt document combinator.scope))
      (elements.flatMap fun element => query.findAmong combinator.scope element.children) := by
  induction query generalizing Wanted positions elements combinator chain with
  | simple selector =>
    cases reads
    rw [List.flatMap_assoc]
    have steps : ∀ above, (document.positionsInside above).flatMap
        ((Query.simple selector).positionsAt document combinator.scope) =
          positionsFrom document (combinator, selector) above :=
      positionsInside_flatMap combinator selector
    simp only [steps]
    refine (enumerates.follow (combinator, selector)).congr ?_
    intro position
    constructor
    · rintro ⟨above, wanted, leads⟩
      exact ⟨above, wanted, .through leads (.arrived position)⟩
    · rintro ⟨above, wanted, linked⟩
      cases linked with
      | through leads arrived =>
        cases arrived
        exact ⟨above, wanted, leads⟩
  | combined inner left right ihLeft ihRight =>
    obtain ⟨leftChain, readsLeft, reads⟩ := Option.bind_eq_some_iff.mp reads
    obtain ⟨rightChain, readsRight, reads⟩ := Option.bind_eq_some_iff.mp reads
    cases reads
    have both := ihRight (ihLeft enumerates combinator readsLeft) inner readsRight
    simp only [List.flatMap_assoc] at both
    simp only [List.flatMap_assoc, Query.findAmong_combined, Query.positionsAt]
    refine both.congr ?_
    intro position
    constructor
    · rintro ⟨middle, ⟨above, wanted, first⟩, second⟩
      refine ⟨above, wanted, ?_⟩
      rw [← List.cons_append, linkedTo_append]
      exact ⟨middle, first, second⟩
    · rintro ⟨above, wanted, linked⟩
      rw [← List.cons_append, linkedTo_append] at linked
      obtain ⟨middle, first, second⟩ := linked
      exact ⟨middle, ⟨above, wanted, first⟩, second⟩
  | union left right => cases reads

namespace Query

/-- The positions of a search for a query without unions are those that its chain selects. -/
theorem enumerates_positions {query : Query} {chain : Chain} (reads : query.chain? = some chain)
    (document : Document) :
    Enumerates document (chain.Selects document) (query.positions document)
      (query.search document) := by
  induction query generalizing chain with
  | simple selector =>
    cases reads
    have first := enumerates_first document selector
    rw [Node.outermostPositionsAmong_eq, Node.positionsAmong_eq_flatMap,
      ← findAmong_simple_subtree] at first
    refine first.congr ?_
    intro position
    constructor
    · intro nearest
      exact ⟨position, nearest, .arrived position⟩
    · rintro ⟨start, nearest, arrived⟩
      cases arrived
      exact nearest
  | combined combinator left right ihLeft _ =>
    obtain ⟨leftChain, readsLeft, reads⟩ := Option.bind_eq_some_iff.mp reads
    obtain ⟨rightChain, readsRight, reads⟩ := Option.bind_eq_some_iff.mp reads
    cases reads
    have both := (ihLeft readsLeft).find combinator readsRight
    simp only [positions, search, List.flatMap_assoc] at both
    simp only [positions, search, findAmong_combined, List.flatMap_assoc, positionsAt]
    refine both.congr ?_
    intro position
    constructor
    · rintro ⟨middle, ⟨start, nearest, first⟩, second⟩
      exact ⟨start, nearest, (linkedTo_append _ _ _ _).mpr ⟨middle, first, second⟩⟩
    · rintro ⟨start, nearest, linked⟩
      obtain ⟨middle, first, second⟩ := (linkedTo_append _ _ _ _).mp linked
      exact ⟨middle, ⟨start, nearest, first⟩, second⟩
  | union left right => cases reads

end Query
end HtmlFragments
