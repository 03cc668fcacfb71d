import Mathlib.Data.List.Basic
import HtmlFragments.Proofs.Selector.Outermost

/-! # Meaning of queries without unions

A query without unions reads as a chain of selectors joined by combinators, however it is nested.
Main result: its search lists the elements that the chain leads to, in document order, each position
once and none inside another. -/
set_option autoImplicit false

namespace HtmlFragments

structure Chain where
  first : Selector
  links : List (Combinator × Selector)
deriving DecidableEq, Repr

namespace Query

def UnionFree : Query → Prop
  | .simple _ => True
  | .combined _ left right => left.UnionFree ∧ right.UnionFree
  | .union _ _ => False

/-- The chain that a query reads as from left to right. A union reads as none. -/
def chain? : Query → Option Chain
  | .simple selector => some ⟨selector, []⟩
  | .combined combinator left right => do
    let leftChain ← left.chain?
    let rightChain ← right.chain?
    return ⟨leftChain.first, leftChain.links ++ (combinator, rightChain.first) :: rightChain.links⟩
  | .union _ _ => none

theorem UnionFree.exists_chain {query : Query} (unionFree : query.UnionFree) :
    ∃ chain, query.chain? = some chain := by
  induction query with
  | simple selector => exact ⟨_, rfl⟩
  | combined combinator left right leftChain rightChain =>
    obtain ⟨first, isFirst⟩ := leftChain unionFree.1
    obtain ⟨second, isSecond⟩ := rightChain unionFree.2
    exact ⟨_, by rw [chain?, isFirst, isSecond]; rfl⟩
  | union left right => exact unionFree.elim

end Query

/-! ## What a chain selects -/

section Meaning
variable (document : Document)

def Selector.AcceptsAt (selector : Selector) (position : Position) : Prop :=
  ∃ element, document.elementAt? position = some element ∧ selector.accepts element = true

/-- Accepted properly below a position, with nothing accepted strictly between the two. The empty
position stands above the whole document. -/
def Selector.NearestBelow (selector : Selector) (above position : Position) : Prop :=
  ∃ inside, inside ≠ [] ∧ position = above ++ inside ∧ selector.AcceptsAt document position ∧
    ∀ between, between ≠ [] → between <+: inside → between ≠ inside →
      ¬ selector.AcceptsAt document (above ++ between)

/-- One step of a chain: to an accepted child, or to a nearest accepted descendant. -/
def Combinator.Leads (selector : Selector) (above position : Position) : Combinator → Prop
  | .child => (∃ index, position = above ++ [index]) ∧ selector.AcceptsAt document position
  | .descendant => selector.NearestBelow document above position

inductive LinkedTo : List (Combinator × Selector) → Position → Position → Prop where
  | arrived (position : Position) : LinkedTo [] position position
  | through {combinator : Combinator} {selector : Selector}
      {links : List (Combinator × Selector)} {above next position : Position} :
      combinator.Leads document selector above next → LinkedTo links next position →
      LinkedTo ((combinator, selector) :: links) above position

/-- The chain starts at an outermost element for its first selector and leads to the position. -/
def Chain.Selects (chain : Chain) (position : Position) : Prop :=
  ∃ start, chain.first.NearestBelow document [] start ∧
    LinkedTo document chain.links start position

/-- The elements at the positions that have a property, in document order, with no position twice
and none inside another. -/
structure Enumerates (Wanted : Position → Prop) (positions : List Position)
    (elements : List Element) : Prop where
  ordered : positions.Pairwise Position.Precedes
  wanted : ∀ position, position ∈ positions ↔ Wanted position
  located : positions.map document.elementAt? = elements.map some

end Meaning

/-! ## Following a chain -/

def followLink (link : Combinator × Selector) (element : Element) : List Element :=
  (Query.simple link.2).findAmong link.1.scope element.children

def linkPositions (link : Combinator × Selector) (element : Element) : List Position :=
  match link.1 with
  | .descendant => Node.outermostPositionsAmong link.2.accepts element.children
  | .child => Node.acceptedPositions link.2.accepts element.children

theorem findAmong_simple_subtree (selector : Selector) (nodes : List Node) :
    (Query.simple selector).findAmong .subtree nodes =
      Node.outermostAmong selector.accepts nodes :=
  (Node.outermostAmong_eq selector.accepts nodes).symm

theorem linkPositions_ne_nil {link : Combinator × Selector} {element : Element}
    {position : Position} (member : position ∈ linkPositions link element) : position ≠ [] := by
  obtain ⟨combinator, selector⟩ := link
  cases combinator with
  | descendant =>
    rw [linkPositions, Node.outermostPositionsAmong_eq] at member
    exact Node.ne_nil_of_mem_positionsAmong member
  | child => exact Node.ne_nil_of_mem_positionsAmong member

theorem linkPositions_ordered (link : Combinator × Selector) (element : Element) :
    (linkPositions link element).Pairwise Position.Precedes := by
  obtain ⟨combinator, selector⟩ := link
  cases combinator with
  | descendant => exact Node.outermostPositionsAmong_ordered _ _
  | child => exact Node.acceptedPositions_ordered _ _

theorem linkPositions_elements (link : Combinator × Selector) (element : Element) :
    (linkPositions link element).map element.descend = (followLink link element).map some := by
  have proper : (linkPositions link element).map element.descend =
      (linkPositions link element).map (Node.elementAt? element.children) := by
    refine List.map_congr_left ?_
    intro position member
    exact element.descend_of_ne_nil (linkPositions_ne_nil member)
  rw [proper]
  obtain ⟨combinator, selector⟩ := link
  cases combinator with
  | descendant =>
    rw [followLink, Combinator.scope, findAmong_simple_subtree]
    exact Node.outermostPositionsAmong_elements _ _
  | child => exact Node.acceptedPositions_elements _ _

variable {document : Document}

theorem acceptsAt_append {selector : Selector} {above inside : Position} {element : Element}
    (found : document.elementAt? above = some element) (proper : inside ≠ []) :
    selector.AcceptsAt document (above ++ inside) ↔
      Node.AcceptedAt selector.accepts element.children inside := by
  rw [Selector.AcceptsAt, Document.elementAt?, Node.elementAt?_append found,
    element.descend_of_ne_nil proper]
  rfl

theorem mem_linkPositions {link : Combinator × Selector} {above inside : Position}
    {element : Element} (found : document.elementAt? above = some element) :
    inside ∈ linkPositions link element ↔
      link.1.Leads document link.2 above (above ++ inside) := by
  obtain ⟨combinator, selector⟩ := link
  cases combinator with
  | descendant =>
    rw [linkPositions, Node.mem_outermostPositionsAmong]
    constructor
    · rintro ⟨accepted, none⟩
      have proper : inside ≠ [] := by
        rintro rfl
        exact Node.not_acceptedAt_nil _ _ accepted
      refine ⟨inside, proper, rfl, (acceptsAt_append found proper).mpr accepted, ?_⟩
      intro between nonempty prefixed different acceptedBetween
      exact none between prefixed different ((acceptsAt_append found nonempty).mp acceptedBetween)
    · rintro ⟨other, proper, same, accepted, none⟩
      have equal : inside = other := List.append_cancel_left same
      subst equal
      refine ⟨(acceptsAt_append found proper).mp accepted, ?_⟩
      intro between prefixed different acceptedBetween
      have nonempty : between ≠ [] := by
        rintro rfl
        exact Node.not_acceptedAt_nil _ _ acceptedBetween
      exact none between nonempty prefixed different
        ((acceptsAt_append found nonempty).mpr acceptedBetween)
  | child =>
    rw [linkPositions, Node.mem_acceptedPositions]
    constructor
    · rintro ⟨⟨index, rfl⟩, accepted⟩
      exact ⟨⟨index, rfl⟩, (acceptsAt_append found (List.cons_ne_nil index [])).mpr accepted⟩
    · rintro ⟨⟨index, same⟩, accepted⟩
      have equal : inside = [index] := List.append_cancel_left same
      subst equal
      exact ⟨⟨index, rfl⟩, (acceptsAt_append found (List.cons_ne_nil index [])).mp accepted⟩

theorem Combinator.Leads.extends {combinator : Combinator} {selector : Selector}
    {above position : Position} (leads : combinator.Leads document selector above position) :
    ∃ inside, position = above ++ inside := by
  cases combinator with
  | child =>
    obtain ⟨⟨index, same⟩, _⟩ := leads
    exact ⟨[index], same⟩
  | descendant =>
    obtain ⟨inside, _, same, _⟩ := leads
    exact ⟨inside, same⟩

def positionsFrom (document : Document) (link : Combinator × Selector) (above : Position) :
    List Position :=
  match document.elementAt? above with
  | none => []
  | some element => (linkPositions link element).map (above ++ ·)

theorem positionsFrom_eq {link : Combinator × Selector} {above : Position} {element : Element}
    (found : document.elementAt? above = some element) :
    positionsFrom document link above = (linkPositions link element).map (above ++ ·) := by
  rw [positionsFrom, found]

theorem extends_of_mem_positionsFrom {link : Combinator × Selector} {above position : Position}
    (member : position ∈ positionsFrom document link above) :
    ∃ inside, position = above ++ inside := by
  cases found : document.elementAt? above with
  | none => simp [positionsFrom, found] at member
  | some element =>
    rw [positionsFrom_eq found] at member
    obtain ⟨inside, _, same⟩ := List.mem_map.mp member
    exact ⟨inside, same.symm⟩

theorem positionsFrom_located (link : Combinator × Selector) (positions : List Position)
    (elements : List Element) (located : positions.map document.elementAt? = elements.map some) :
    (positions.flatMap (positionsFrom document link)).map document.elementAt? =
      (elements.flatMap (followLink link)).map some := by
  refine Document.located_flatMap located ?_
  intro above element found
  rw [positionsFrom_eq found, List.map_map, ← linkPositions_elements]
  refine List.map_congr_left ?_
  intro inside _
  exact Node.elementAt?_append found inside

variable {Wanted : Position → Prop} {positions : List Position} {elements : List Element}

theorem Enumerates.exists_element (enumerates : Enumerates document Wanted positions elements)
    {position : Position} (member : position ∈ positions) :
    ∃ element, document.elementAt? position = some element := by
  have image : document.elementAt? position ∈ elements.map some := by
    rw [← enumerates.located]
    exact List.mem_map_of_mem member
  obtain ⟨element, _, same⟩ := List.mem_map.mp image
  exact ⟨element, same.symm⟩

/-- What enumerates the wanted positions leads through a link to what enumerates the further
ones. That no position lies inside another is what keeps the order of the further ones. -/
theorem Enumerates.follow (enumerates : Enumerates document Wanted positions elements)
    (link : Combinator × Selector) :
    Enumerates document
      (fun position => ∃ above, Wanted above ∧ link.1.Leads document link.2 above position)
      (positions.flatMap (positionsFrom document link)) (elements.flatMap (followLink link)) where
  ordered := by
    rw [List.pairwise_flatMap]
    refine ⟨?_, enumerates.ordered.imp ?_⟩
    · intro above member
      obtain ⟨element, found⟩ := enumerates.exists_element member
      rw [positionsFrom_eq found, List.pairwise_map]
      exact (linkPositions_ordered link element).imp (Position.Precedes.append_left above)
    · intro above other before position first otherPosition second
      obtain ⟨inside, rfl⟩ := extends_of_mem_positionsFrom first
      obtain ⟨otherInside, rfl⟩ := extends_of_mem_positionsFrom second
      exact before.append_right inside otherInside
  wanted := by
    intro position
    rw [List.mem_flatMap]
    constructor
    · rintro ⟨above, member, inside⟩
      obtain ⟨element, found⟩ := enumerates.exists_element member
      rw [positionsFrom_eq found] at inside
      obtain ⟨below, isBelow, rfl⟩ := List.mem_map.mp inside
      exact ⟨above, (enumerates.wanted above).mp member, (mem_linkPositions found).mp isBelow⟩
    · rintro ⟨above, isWanted, leads⟩
      have member := (enumerates.wanted above).mpr isWanted
      obtain ⟨element, found⟩ := enumerates.exists_element member
      obtain ⟨inside, rfl⟩ := leads.extends
      refine ⟨above, member, ?_⟩
      rw [positionsFrom_eq found]
      exact List.mem_map_of_mem ((mem_linkPositions found).mpr leads)
  located := positionsFrom_located link positions elements enumerates.located

theorem Enumerates.congr {Other : Position → Prop}
    (enumerates : Enumerates document Wanted positions elements)
    (same : ∀ position, Wanted position ↔ Other position) :
    Enumerates document Other positions elements where
  ordered := enumerates.ordered
  wanted position := (enumerates.wanted position).trans (same position)
  located := enumerates.located

def followLinks (links : List (Combinator × Selector)) (elements : List Element) : List Element :=
  links.foldl (fun found link => found.flatMap (followLink link)) elements

theorem Enumerates.followLinks (enumerates : Enumerates document Wanted positions elements)
    (links : List (Combinator × Selector)) :
    ∃ further, Enumerates document
      (fun position => ∃ start, Wanted start ∧ LinkedTo document links start position)
      further (followLinks links elements) := by
  induction links generalizing Wanted positions elements with
  | nil =>
    refine ⟨positions, enumerates.congr ?_⟩
    intro position
    constructor
    · intro wanted
      exact ⟨position, wanted, .arrived position⟩
    · rintro ⟨start, wanted, linked⟩
      cases linked
      exact wanted
  | cons link links ih =>
    obtain ⟨further, enumeratesFurther⟩ := ih (enumerates.follow link)
    refine ⟨further, enumeratesFurther.congr ?_⟩
    intro position
    constructor
    · rintro ⟨next, ⟨start, wanted, leads⟩, linked⟩
      exact ⟨start, wanted, .through leads linked⟩
    · rintro ⟨start, wanted, linked⟩
      cases linked with
      | through leads linked => exact ⟨_, ⟨start, wanted, leads⟩, linked⟩

theorem nearestBelow_top_iff (document : Document) (selector : Selector) (position : Position) :
    selector.NearestBelow document [] position ↔
      Node.IsOutermost selector.accepts document.children position := by
  constructor
  · rintro ⟨inside, proper, rfl, accepted, none⟩
    refine ⟨accepted, ?_⟩
    intro around prefixed different acceptedAround
    have nonempty : around ≠ [] := by
      rintro rfl
      exact Node.not_acceptedAt_nil _ _ acceptedAround
    exact none around nonempty prefixed different acceptedAround
  · rintro ⟨accepted, none⟩
    have proper : position ≠ [] := by
      rintro rfl
      exact Node.not_acceptedAt_nil _ _ accepted
    refine ⟨position, proper, rfl, accepted, ?_⟩
    intro between _ prefixed different
    exact none between prefixed different

theorem enumerates_first (document : Document) (selector : Selector) :
    Enumerates document (selector.NearestBelow document [])
      (Node.outermostPositionsAmong selector.accepts document.children)
      (Node.outermostAmong selector.accepts document.children) where
  ordered := Node.outermostPositionsAmong_ordered _ _
  wanted position := (Node.mem_outermostPositionsAmong _ _ position).trans
    (nearestBelow_top_iff document selector position).symm
  located := Node.outermostPositionsAmong_elements _ _

/-! ## A query does what its chain does -/

theorem followLinks_flatMap {Item : Type} (links : List (Combinator × Selector))
    (items : List Item) (start : Item → List Element) :
    followLinks links (items.flatMap start) =
      items.flatMap fun item => followLinks links (start item) := by
  induction links generalizing start with
  | nil => rfl
  | cons link links ih =>
    rw [followLinks, List.foldl_cons, List.flatMap_assoc]
    exact ih fun item => (start item).flatMap (followLink link)

namespace Query

theorem find_of_chain {query : Query} {chain : Chain} (reads : query.chain? = some chain)
    (scope : Scope) (element : Element) :
    query.find scope element =
      followLinks chain.links ((simple chain.first).find scope element) := by
  induction query generalizing chain scope element with
  | simple selector =>
    cases reads
    rfl
  | combined combinator left right leftFind rightFind =>
    obtain ⟨leftChain, readsLeft, reads⟩ := Option.bind_eq_some_iff.mp reads
    obtain ⟨rightChain, readsRight, reads⟩ := Option.bind_eq_some_iff.mp reads
    cases reads
    have split : followLinks
        (leftChain.links ++ (combinator, rightChain.first) :: rightChain.links)
          ((simple leftChain.first).find scope element) =
        followLinks rightChain.links
          ((left.find scope element).flatMap (followLink (combinator, rightChain.first))) := by
      rw [leftFind readsLeft, followLinks, List.foldl_append, List.foldl_cons]
      rfl
    have inside : ∀ found : Element,
        (Node.elements found.children).flatMap (right.find combinator.scope) =
          followLinks rightChain.links (followLink (combinator, rightChain.first) found) := by
      intro found
      rw [followLink, findAmong, followLinks_flatMap]
      exact List.flatMap_congr fun inner _ => rightFind readsRight combinator.scope inner
    rw [split, followLinks_flatMap, find, Node.elements, List.filterMap_flatMap, List.flatMap_assoc]
    exact List.flatMap_congr fun found _ => inside found
  | union left right => cases reads

theorem search_of_chain {query : Query} {chain : Chain} (reads : query.chain? = some chain)
    (document : Document) :
    query.search document = followLinks chain.links
      (Node.outermostAmong chain.first.accepts document.children) := by
  rw [← findAmong_simple_subtree, search, findAmong, findAmong, followLinks_flatMap]
  exact List.flatMap_congr fun element _ => find_of_chain reads .subtree element

/-- A query without unions reads as a chain. Its search lists the elements that the chain selects:
their positions ascend in document order, each selected position occurs among them exactly once, and
none lies inside another. -/
theorem search_eq_selected (query : Query) (unionFree : query.UnionFree) (document : Document) :
    ∃ chain, query.chain? = some chain ∧
      ∃ positions : List Position,
        (query.search document).map some = positions.map document.elementAt? ∧
        (∀ position, position ∈ positions ↔ chain.Selects document position) ∧
        positions.Pairwise (fun position later =>
          position < later ∧ ¬ position <+: later ∧ ¬ later <+: position) := by
  obtain ⟨chain, reads⟩ := unionFree.exists_chain
  obtain ⟨positions, enumerates⟩ :=
    (enumerates_first document chain.first).followLinks chain.links
  refine ⟨chain, reads, positions, ?_, enumerates.wanted, ?_⟩
  · rw [search_of_chain reads, enumerates.located]
  · exact enumerates.ordered.imp fun before => ⟨before.lt, before.not_inside⟩

/-- The chain `a b>c`, nested to the right, on a document with one `c` in its place and one
outside. -/
theorem search_eq_selected_nested :
    let tagged (tag : String) : Query := .simple { tag := some (Text.ofString tag) }
    let query : Query :=
      .combined .descendant (tagged "a") (.combined .child (tagged "b") (tagged "c"))
    let leaf : Node := .element (Text.ofString "c") [] []
    let document : Document :=
      ⟨[leaf, .element (Text.ofString "a") [] [.element (Text.ofString "b") [] [leaf]]]⟩
    query.UnionFree ∧ query.search document = [⟨Text.ofString "c", [], []⟩] ∧
      ∃ chain, query.chain? = some chain ∧
        ∃ positions : List Position,
          (query.search document).map some = positions.map document.elementAt? ∧
          (∀ position, position ∈ positions ↔ chain.Selects document position) ∧
          positions.Pairwise (fun position later =>
            position < later ∧ ¬ position <+: later ∧ ¬ later <+: position) := by
  intro tagged query leaf document
  have unionFree : query.UnionFree := ⟨trivial, trivial, trivial⟩
  exact ⟨unionFree, by decide +kernel, search_eq_selected query unionFree document⟩

end Query
end HtmlFragments
