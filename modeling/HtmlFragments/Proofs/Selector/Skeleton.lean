import Mathlib.Data.Finset.Dedup
import HtmlFragments.Proofs.Selector.Results

/-! # Searching a skeleton

Text and the order and repetition of attributes mean nothing to a search. What is left of a document
without them is its skeleton, and what is left of a selector is its tag and its set of required
attributes. Main result: searches of documents with one skeleton, for queries that differ only in
how their selectors are written, find the same places of the skeleton in the same order. -/
set_option autoImplicit false

namespace HtmlFragments

/-- An element without its text, its attributes taken as a set. -/
inductive Skeleton where
  | element (tag : Text) (attributes : Finset Attribute) (children : List Skeleton)

namespace Node

mutual

def skeleton? : Node → Option Skeleton
  | .text _ => none
  | .element tag attributes children =>
    some (.element tag attributes.toFinset (skeletons children))

def skeletons : List Node → List Skeleton
  | [] => []
  | node :: rest => (skeleton? node).toList ++ skeletons rest

end

/-- A position with text left out of the count: at each step, how many elements stand before. -/
def skeletonPosition (nodes : List Node) : Position → Position
  | [] => []
  | index :: rest =>
    (elements (nodes.take index)).length ::
      skeletonPosition ((childAt? nodes index).elim [] Element.children) rest

end Node

def Element.skeleton (element : Element) : Skeleton :=
  .element element.tag element.attributes.toFinset (Node.skeletons element.children)

namespace Document

def skeleton (document : Document) : List Skeleton := Node.skeletons document.children

def skeletonPosition (document : Document) (position : Position) : Position :=
  Node.skeletonPosition document.children position

end Document

/-- The same tag and the same set of required attributes, however they are written. -/
structure Selector.Alike (selector other : Selector) : Prop where
  tag : selector.tag = other.tag
  required : selector.requiredAttributes.toFinset = other.requiredAttributes.toFinset

inductive Query.Alike : Query → Query → Prop where
  | simple {selector other : Selector} : selector.Alike other →
      Alike (.simple selector) (.simple other)
  | combined (combinator : Combinator) {left right otherLeft otherRight : Query} :
      Alike left otherLeft → Alike right otherRight →
      Alike (.combined combinator left right) (.combined combinator otherLeft otherRight)
  | union {left right otherLeft otherRight : Query} :
      Alike left otherLeft → Alike right otherRight →
      Alike (.union left right) (.union otherLeft otherRight)

/-! ## What a selector sees of a skeleton -/

theorem Node.skeletons_eq (nodes : List Node) :
    skeletons nodes = (elements nodes).map Element.skeleton := by
  induction nodes with
  | nil => rfl
  | cons node rest ih =>
    rw [skeletons, ih]
    cases node <;> rfl

theorem Element.skeleton_eq_iff {element other : Element} :
    element.skeleton = other.skeleton ↔
      element.tag = other.tag ∧ (∀ pair, pair ∈ element.attributes ↔ pair ∈ other.attributes) ∧
        (Node.elements element.children).map Element.skeleton =
          (Node.elements other.children).map Element.skeleton := by
  rw [skeleton, skeleton, Skeleton.element.injEq, Finset.ext_iff, Node.skeletons_eq,
    Node.skeletons_eq]
  simp only [List.mem_toFinset]

namespace Selector

theorem accepts_iff {selector : Selector} {element : Element} :
    selector.accepts element = true ↔
      (∀ tag, selector.tag = some tag → tag = element.tag) ∧
        ∀ required ∈ selector.requiredAttributes, required ∈ element.attributes := by
  rw [accepts, Bool.and_eq_true, List.all_eq_true]
  refine and_congr ?_ (by simp)
  cases selector.tag with
  | none => simp
  | some tag => simp

theorem Alike.accepts {selector other : Selector} (alike : selector.Alike other)
    {element counterpart : Element} (same : element.skeleton = counterpart.skeleton) :
    selector.accepts element = other.accepts counterpart := by
  obtain ⟨sameTag, sameAttributes, _⟩ := Element.skeleton_eq_iff.mp same
  have sameRequired : ∀ pair, pair ∈ selector.requiredAttributes ↔
      pair ∈ other.requiredAttributes := by
    intro pair
    rw [← List.mem_toFinset, alike.required, List.mem_toFinset]
  rw [Bool.eq_iff_iff, accepts_iff, accepts_iff, alike.tag, sameTag]
  simp only [sameRequired, sameAttributes]

end Selector

/-! ## What is seen of a position

A search is compared with another one by what can be told of its positions from the skeleton alone:
where they are in it, and which skeleton stands there. -/

namespace Node

def view (nodes : List Node) (position : Position) : Position × Option Skeleton :=
  (skeletonPosition nodes position, (elementAt? nodes position).map Element.skeleton)

end Node

def Element.view (element : Element) (position : Position) : Position × Option Skeleton :=
  (Node.skeletonPosition element.children position, (element.descend position).map Element.skeleton)

def Document.view (document : Document) (position : Position) : Position × Option Skeleton :=
  Node.view document.children position

theorem Element.view_nil (element : Element) : element.view [] = ([], some element.skeleton) := rfl

theorem Element.view_of_ne_nil (element : Element) {position : Position} (proper : position ≠ []) :
    element.view position = Node.view element.children position := by
  rw [view, Node.view, element.descend_of_ne_nil proper]

theorem Node.skeletonPosition_append {nodes : List Node} {above : Position} {element : Element}
    (found : elementAt? nodes above = some element) (inside : Position) :
    skeletonPosition nodes (above ++ inside) =
      skeletonPosition nodes above ++ skeletonPosition element.children inside := by
  induction above generalizing nodes with
  | nil => cases found
  | cons index rest ih =>
    obtain ⟨child, atIndex, reached⟩ := Option.bind_eq_some_iff.mp found
    simp only [List.cons_append, skeletonPosition, atIndex, Option.elim]
    cases rest with
    | nil =>
      cases reached
      rfl
    | cons next more =>
      rw [child.descend_of_ne_nil (List.cons_ne_nil next more)] at reached
      rw [ih reached]

theorem Document.view_append {document : Document} {above : Position} {element : Element}
    (found : document.elementAt? above = some element) (inside : Position) :
    document.view (above ++ inside) =
      (document.skeletonPosition above ++ (element.view inside).1, (element.view inside).2) := by
  rw [view, Node.view, Node.skeletonPosition_append found, Node.elementAt?_append found]
  rfl

theorem Document.map_view_append {document : Document} {above : Position} {element : Element}
    (found : document.elementAt? above = some element) (inside : List Position) :
    (inside.map (above ++ ·)).map document.view =
      (inside.map element.view).map (Prod.map (document.skeletonPosition above ++ ·) id) := by
  rw [List.map_map, List.map_map]
  exact List.map_congr_left fun inner _ => document.view_append found inner

/-! ## Views among neighbouring nodes -/

def viewsAmong (inside : Element → List (Position × Option Skeleton)) :
    List Element → List (Position × Option Skeleton)
  | [] => []
  | element :: rest =>
    (inside element).map (Prod.map (0 :: ·) id) ++
      (viewsAmong inside rest).map (Prod.map Node.shift id)

theorem Node.view_shift_text (value : Text) (nodes : List Node) {position : Position}
    (proper : position ≠ []) :
    view (.text value :: nodes) (shift position) = view nodes position := by
  cases position with
  | nil => exact absurd rfl proper
  | cons index rest => rfl

theorem Node.view_shift_element (tag : Text) (attributes : List Attribute)
    (children nodes : List Node) {position : Position} (proper : position ≠ []) :
    view (.element tag attributes children :: nodes) (shift position) =
      Prod.map shift id (view nodes position) := by
  cases position with
  | nil => exact absurd rfl proper
  | cons index rest => rfl

theorem Node.positionsAmong_view (inside : Element → List Position) (nodes : List Node) :
    (positionsAmong inside nodes).map (view nodes) =
      viewsAmong (fun element => (inside element).map element.view) (elements nodes) := by
  induction nodes with
  | nil => rfl
  | cons node nodes ih =>
    rw [positionsAmong_cons, List.map_append, List.map_map, List.map_map]
    cases node with
    | text value =>
      have later : (positionsAmong inside nodes).map (view (.text value :: nodes) ∘ shift) =
          (positionsAmong inside nodes).map (view nodes) :=
        List.map_congr_left fun position member =>
          view_shift_text value nodes (ne_nil_of_mem_positionsAmong member)
      rw [later, ih]
      rfl
    | element tag attributes children =>
      have later : (positionsAmong inside nodes).map
          (view (.element tag attributes children :: nodes) ∘ shift) =
            ((positionsAmong inside nodes).map (view nodes)).map (Prod.map shift id) := by
        rw [List.map_map]
        exact List.map_congr_left fun position member =>
          view_shift_element tag attributes children nodes (ne_nil_of_mem_positionsAmong member)
      have neighbours : elements (.element tag attributes children :: nodes) =
          ⟨tag, attributes, children⟩ :: elements nodes := rfl
      rw [later, ih, neighbours, viewsAmong, List.map_map]
      rfl

theorem viewsAmong_congr {inside otherInside : Element → List (Position × Option Skeleton)}
    {elements others : List Element}
    (same : elements.map Element.skeleton = others.map Element.skeleton)
    (alike : ∀ element ∈ elements, ∀ other, element.skeleton = other.skeleton →
      inside element = otherInside other) :
    viewsAmong inside elements = viewsAmong otherInside others := by
  induction elements generalizing others with
  | nil =>
    cases others with
    | nil => rfl
    | cons other others => cases same
  | cons element elements ih =>
    cases others with
    | nil => cases same
    | cons other others =>
      obtain ⟨first, later⟩ := List.cons.inj same
      obtain ⟨alikeFirst, alikeLater⟩ := List.forall_mem_cons.mp alike
      rw [viewsAmong, viewsAmong, alikeFirst other first, ih later alikeLater]

theorem Element.positionsAmong_view (element : Element) (inside : Element → List Position) :
    (Node.positionsAmong inside element.children).map element.view =
      (Node.positionsAmong inside element.children).map (Node.view element.children) :=
  List.map_congr_left fun _ member =>
    element.view_of_ne_nil (Node.ne_nil_of_mem_positionsAmong member)

/-- Two lists of nodes with the same skeletons give the same views, if positions inside elements
with the same skeleton do. -/
theorem Node.positionsAmong_alike {inside otherInside : Element → List Position}
    {nodes others : List Node}
    (same : (elements nodes).map Element.skeleton = (elements others).map Element.skeleton)
    (alike : ∀ element ∈ elements nodes, ∀ other, element.skeleton = other.skeleton →
      (inside element).map element.view = (otherInside other).map other.view) :
    (positionsAmong inside nodes).map (view nodes) =
      (positionsAmong otherInside others).map (view others) := by
  rw [positionsAmong_view, positionsAmong_view]
  exact viewsAmong_congr same alike

theorem Node.elementPositions_alike {nodes others : List Node}
    (same : (elements nodes).map Element.skeleton = (elements others).map Element.skeleton) :
    (elementPositions nodes).map (view nodes) = (elementPositions others).map (view others) := by
  refine positionsAmong_alike same ?_
  intro element _ other sameSkeleton
  rw [List.map_singleton, List.map_singleton, element.view_nil, other.view_nil, sameSkeleton]

/-! ## Searches of one skeleton -/

section Search
variable {selector otherSelector : Selector}

theorem Selector.Alike.outermost (alike : selector.Alike otherSelector) (element : Element) :
    ∀ other : Element, element.skeleton = other.skeleton →
      (Node.outermostPositions selector.accepts element.toNode).map element.view =
        (Node.outermostPositions otherSelector.accepts other.toNode).map other.view := by
  revert element
  refine Element.induct_children ?_
  intro element ih other same
  have children := (Element.skeleton_eq_iff.mp same).2.2
  rw [Node.outermostPositions_toNode, Node.outermostPositions_toNode, alike.accepts same]
  split
  · rw [List.map_singleton, List.map_singleton, element.view_nil, other.view_nil, same]
  · rw [Node.outermostPositionsAmong_eq, Node.outermostPositionsAmong_eq,
      Element.positionsAmong_view, Element.positionsAmong_view]
    exact Node.positionsAmong_alike children ih

theorem Selector.Alike.positionsIn (alike : selector.Alike otherSelector) (scope : Scope)
    {element other : Element} (same : element.skeleton = other.skeleton) :
    (selector.positionsIn scope element).map element.view =
      (otherSelector.positionsIn scope other).map other.view := by
  cases scope with
  | level =>
    rw [Selector.positionsIn, Selector.positionsIn, alike.accepts same]
    split
    · rw [List.map_singleton, List.map_singleton, element.view_nil, other.view_nil, same]
    · rfl
  | subtree => exact alike.outermost element other same

variable {document other : Document}

theorem view_map_append {position counterpart : Position} {element otherElement : Element}
    (found : document.elementAt? position = some element)
    (otherFound : other.elementAt? counterpart = some otherElement)
    (same : document.skeletonPosition position = other.skeletonPosition counterpart)
    {inside otherInside : List Position}
    (alike : inside.map element.view = otherInside.map otherElement.view) :
    (inside.map (position ++ ·)).map document.view =
      (otherInside.map (counterpart ++ ·)).map other.view := by
  rw [Document.map_view_append found, Document.map_view_append otherFound, alike, same]

/-- At positions with the same view there are elements with the same skeleton, or none. -/
theorem view_cases {position counterpart : Position}
    (same : document.view position = other.view counterpart) :
    (document.elementAt? position = none ∧ other.elementAt? counterpart = none) ∨
      ∃ element otherElement, document.elementAt? position = some element ∧
        other.elementAt? counterpart = some otherElement ∧
        element.skeleton = otherElement.skeleton := by
  have skeletons : (document.elementAt? position).map Element.skeleton =
      (other.elementAt? counterpart).map Element.skeleton := congrArg Prod.snd same
  cases found : document.elementAt? position with
  | none =>
    rw [found] at skeletons
    exact .inl ⟨rfl, Option.map_eq_none_iff.mp skeletons.symm⟩
  | some element =>
    rw [found] at skeletons
    obtain ⟨otherElement, otherFound, sameSkeleton⟩ := Option.map_eq_some_iff.mp skeletons.symm
    exact .inr ⟨element, otherElement, rfl, otherFound, sameSkeleton.symm⟩

theorem positionsInside_view {position counterpart : Position}
    (same : document.view position = other.view counterpart) :
    (document.positionsInside position).map document.view =
      (other.positionsInside counterpart).map other.view := by
  rcases view_cases same with ⟨missing, otherMissing⟩ |
    ⟨element, otherElement, found, otherFound, sameSkeleton⟩
  · rw [Document.positionsInside, Document.positionsInside, missing, otherMissing]
    rfl
  · rw [Document.positionsInside_eq found, Document.positionsInside_eq otherFound]
    refine view_map_append found otherFound (congrArg Prod.fst same) ?_
    rw [Node.elementPositions, Node.elementPositions, Element.positionsAmong_view,
      Element.positionsAmong_view]
    exact Node.elementPositions_alike (Element.skeleton_eq_iff.mp sameSkeleton).2.2

/-- What is found one step on has the same views, if that is so from positions with the same view
on. -/
theorem view_flatMap {step otherStep : Position → List Position}
    (alike : ∀ position counterpart, document.view position = other.view counterpart →
      (step position).map document.view = (otherStep counterpart).map other.view)
    {positions counterparts : List Position}
    (same : positions.map document.view = counterparts.map other.view) :
    (positions.flatMap step).map document.view =
      (counterparts.flatMap otherStep).map other.view := by
  induction positions generalizing counterparts with
  | nil =>
    cases counterparts with
    | nil => rfl
    | cons counterpart counterparts => cases same
  | cons position positions ih =>
    cases counterparts with
    | nil => cases same
    | cons counterpart counterparts =>
      obtain ⟨first, later⟩ := List.cons.inj same
      rw [List.flatMap_cons, List.flatMap_cons, List.map_append, List.map_append,
        alike position counterpart first, ih later]

theorem Query.Alike.positionsAt {query like : Query} (alike : query.Alike like) (scope : Scope)
    {position counterpart : Position}
    (same : document.view position = other.view counterpart) :
    (query.positionsAt document scope position).map document.view =
      (like.positionsAt other scope counterpart).map other.view := by
  induction alike generalizing scope position counterpart with
  | simple alike =>
    rw [Query.positionsAt, Query.positionsAt, Selector.positionsAt, Selector.positionsAt]
    rcases view_cases same with ⟨missing, otherMissing⟩ |
      ⟨element, otherElement, found, otherFound, sameSkeleton⟩
    · rw [missing, otherMissing]
      rfl
    · rw [found, otherFound]
      exact view_map_append found otherFound (congrArg Prod.fst same)
        (alike.positionsIn scope sameSkeleton)
  | combined combinator _ _ ihLeft ihRight =>
    rw [Query.positionsAt, Query.positionsAt]
    refine view_flatMap (fun _ _ sameView => ihRight combinator.scope sameView) ?_
    exact view_flatMap (fun _ _ sameView => positionsInside_view sameView) (ihLeft scope same)
  | union _ _ ihLeft ihRight =>
    rw [Query.positionsAt, Query.positionsAt, List.map_append, List.map_append,
      ihLeft scope same, ihRight scope same]

theorem Query.Alike.positions {query like : Query} (alike : query.Alike like)
    (same : document.skeleton = other.skeleton) :
    (query.positions document).map document.view = (like.positions other).map other.view := by
  refine view_flatMap (fun _ _ sameView => alike.positionsAt .subtree sameView) ?_
  rw [Document.skeleton, Document.skeleton, Node.skeletons_eq, Node.skeletons_eq] at same
  exact Node.elementPositions_alike same

end Search

theorem Query.positions_skeletons (query : Query) (document : Document) :
    ((query.positions document).map document.view).map Prod.snd =
      ((query.search document).map Element.skeleton).map some := by
  have located := congrArg (List.map (Option.map Element.skeleton))
    (query.positions_located document)
  rw [List.map_map, List.map_map] at located
  rw [List.map_map, List.map_map]
  exact located

/-- Searches of documents with one skeleton, for queries alike in all their selectors, give as many
results, and the results stand at the same places of the skeleton, one by one. -/
theorem Query.search_skeleton {document other : Document} {query like : Query}
    (same : document.skeleton = other.skeleton) (alike : query.Alike like) :
    (query.search document).length = (like.search other).length ∧
      (query.search document).map some =
        (query.positions document).map document.elementAt? ∧
      (like.search other).map some = (like.positions other).map other.elementAt? ∧
      (query.positions document).map document.skeletonPosition =
        (like.positions other).map other.skeletonPosition ∧
      (query.search document).map Element.skeleton =
        (like.search other).map Element.skeleton := by
  have views := alike.positions same
  have skeletons : (query.search document).map Element.skeleton =
      (like.search other).map Element.skeleton := by
    apply List.map_injective_iff.mpr (Option.some_injective Skeleton)
    rw [← query.positions_skeletons, ← like.positions_skeletons, views]
  refine ⟨?_, (query.positions_located document).symm, (like.positions_located other).symm, ?_,
    skeletons⟩
  · simpa using congrArg List.length skeletons
  · have places := congrArg (List.map Prod.fst) views
    rwa [List.map_map, List.map_map] at places

/-- Written differently: `p#a > i` in `x<p id=a class=b>y<i></i></p>`, and `p[id=a][id=a] > i` in
`<p class=b id=a class=b><i>y</i>x</p>`. -/
theorem Query.search_skeleton_rewritten :
    let named : Attribute := ⟨Selector.idName, Text.ofString "a"⟩
    let classed : Attribute := ⟨Selector.className, Text.ofString "b"⟩
    let inline (children : List Node) : Node := .element (Text.ofString "i") [] children
    let document : Document := ⟨[.text (Text.ofString "x"),
      .element (Text.ofString "p") [named, classed] [.text (Text.ofString "y"), inline []]]⟩
    let other : Document := ⟨[.element (Text.ofString "p") [classed, named, classed]
      [inline [.text (Text.ofString "y")], .text (Text.ofString "x")]]⟩
    let tagged : Query := .simple { tag := some (Text.ofString "i") }
    let query : Query := .combined .child
      (.simple { tag := some (Text.ofString "p"), ids := [Text.ofString "a"] }) tagged
    let like : Query := .combined .child
      (.simple { tag := some (Text.ofString "p"), attributes := [named, named] }) tagged
    document.skeleton = other.skeleton ∧ query.Alike like ∧
      query.positions document = [[1, 1]] ∧ like.positions other = [[0, 0]] ∧
      (query.positions document).map document.skeletonPosition =
        (like.positions other).map other.skeletonPosition := by
  intro named classed inline document other tagged query like
  have attributes : [named, classed].toFinset = [classed, named, classed].toFinset := by decide
  have same : document.skeleton = other.skeleton := by
    simp only [Document.skeleton, document, other, Node.skeletons, Node.skeleton?, attributes]
    rfl
  have alike : query.Alike like :=
    .combined .child (.simple ⟨rfl, by decide⟩) (.simple ⟨rfl, rfl⟩)
  obtain ⟨_, _, _, places, _⟩ := search_skeleton same alike
  exact ⟨same, alike, by decide +kernel, by decide +kernel, places⟩

end HtmlFragments
