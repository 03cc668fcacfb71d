import HtmlFragments.Selector.Search

/-! # Positions in a document

Equal elements may stand at several places, so a result is told from another by its position: the
child indices that lead to it from the top of the document. Document order is the order of positions
as lists, in which an element comes before all that lies inside it. -/
set_option autoImplicit false

namespace HtmlFragments

abbrev Position := List Nat

namespace Node

def childAt? (nodes : List Node) (index : Nat) : Option Element := nodes[index]?.bind element?

end Node

def Element.descend (element : Element) : Position → Option Element
  | [] => some element
  | index :: rest => (Node.childAt? element.children index).bind (·.descend rest)

/-- The element at a position. The top of a forest is the place of no element. -/
def Node.elementAt? (nodes : List Node) : Position → Option Element
  | [] => none
  | index :: rest => (childAt? nodes index).bind (·.descend rest)

def Document.elementAt? (document : Document) (position : Position) : Option Element :=
  Node.elementAt? document.children position

theorem Element.descend_append (element : Element) (above below : Position) :
    element.descend (above ++ below) = (element.descend above).bind (·.descend below) := by
  induction above generalizing element with
  | nil => rfl
  | cons index rest ih =>
    simp only [List.cons_append, descend, Option.bind_assoc]
    exact Option.bind_congr fun child _ => ih child

theorem Element.descend_of_ne_nil (element : Element) {below : Position} (proper : below ≠ []) :
    element.descend below = Node.elementAt? element.children below := by
  cases below with
  | nil => exact absurd rfl proper
  | cons index rest => rfl

theorem Node.elementAt?_append {nodes : List Node} {above : Position} {element : Element}
    (found : elementAt? nodes above = some element) (below : Position) :
    elementAt? nodes (above ++ below) = element.descend below := by
  cases above with
  | nil => cases found
  | cons index rest =>
    obtain ⟨child, atIndex, reached⟩ := Option.bind_eq_some_iff.mp found
    simp only [List.cons_append, elementAt?, atIndex, Option.bind_some,
      Element.descend_append, reached]

/-- Where every result stands at its position, so does everything found at each result. -/
theorem Document.located_flatMap {document : Document} {positions : List Position}
    {elements : List Element} {inside : Position → List Position}
    {found : Element → List Element}
    (located : positions.map document.elementAt? = elements.map some)
    (step : ∀ position element, document.elementAt? position = some element →
      (inside position).map document.elementAt? = (found element).map some) :
    (positions.flatMap inside).map document.elementAt? = (elements.flatMap found).map some := by
  induction positions generalizing elements with
  | nil =>
    cases elements with
    | nil => rfl
    | cons element rest => cases located
  | cons position positions ih =>
    cases elements with
    | nil => cases located
    | cons element rest =>
      obtain ⟨here, others⟩ := List.cons.inj located
      rw [List.flatMap_cons, List.flatMap_cons, List.map_append, List.map_append,
        step position element here, ih others]

/-! ## Order of positions -/

namespace Position

/-- One position stands before another one in document order, and neither lies inside the other. -/
inductive Precedes : Position → Position → Prop where
  | earlier {index other : Nat} (rest otherRest : Position) (less : index < other) :
      Precedes (index :: rest) (other :: otherRest)
  | within {position other : Position} (index : Nat) (further : Precedes position other) :
      Precedes (index :: position) (index :: other)

theorem Precedes.append_left {position other : Position} (above : Position)
    (before : Precedes position other) : Precedes (above ++ position) (above ++ other) := by
  induction above with
  | nil => exact before
  | cons index rest ih => exact .within index ih

theorem Precedes.append_right {position other : Position} (inside otherInside : Position)
    (before : Precedes position other) :
    Precedes (position ++ inside) (other ++ otherInside) := by
  induction before with
  | earlier rest otherRest less => exact .earlier _ _ less
  | within index _ ih => exact .within index ih

theorem Precedes.lt {position other : Position} (before : Precedes position other) :
    position < other := by
  induction before with
  | earlier rest otherRest less => exact List.Lex.rel less
  | within index _ ih => exact List.Lex.cons ih

theorem Precedes.not_inside {position other : Position} (before : Precedes position other) :
    ¬ position <+: other ∧ ¬ other <+: position := by
  induction before with
  | earlier rest otherRest less =>
    simp only [List.cons_prefix_cons, not_and]
    omega
  | within index _ ih => simpa only [List.cons_prefix_cons, true_and] using ih

end Position

/-! ## Positions found element by element -/

namespace Node

def shift : Position → Position
  | [] => []
  | index :: rest => (index + 1) :: rest

def positionsAmong (inside : Element → List Position) : List Node → List Position
  | [] => []
  | node :: rest =>
    (node.element?.elim [] inside).map (0 :: ·) ++ (positionsAmong inside rest).map shift

theorem positionsAmong_cons (inside : Element → List Position) (node : Node) (rest : List Node) :
    positionsAmong inside (node :: rest) =
      (node.element?.elim [] inside).map (0 :: ·) ++ (positionsAmong inside rest).map shift := rfl

theorem childAt?_zero (node : Node) (rest : List Node) :
    childAt? (node :: rest) 0 = node.element? := rfl

theorem mem_positionsAmong (inside : Element → List Position) (nodes : List Node)
    (position : Position) :
    position ∈ positionsAmong inside nodes ↔
      ∃ index rest element, position = index :: rest ∧ childAt? nodes index = some element ∧
        rest ∈ inside element := by
  induction nodes generalizing position with
  | nil => simp [positionsAmong, childAt?]
  | cons node nodes ih =>
    rw [positionsAmong_cons, List.mem_append, List.mem_map, List.mem_map]
    constructor
    · rintro (⟨rest, member, rfl⟩ | ⟨shifted, member, rfl⟩)
      · cases shows : node.element? with
        | none => simp [shows] at member
        | some element =>
          rw [shows] at member
          exact ⟨0, rest, element, rfl, shows, member⟩
      · obtain ⟨index, rest, element, rfl, atIndex, found⟩ := (ih shifted).mp member
        exact ⟨index + 1, rest, element, rfl, atIndex, found⟩
    · rintro ⟨index, rest, element, rfl, atIndex, found⟩
      cases index with
      | zero =>
        rw [childAt?_zero] at atIndex
        exact .inl ⟨rest, by rw [atIndex]; exact found, rfl⟩
      | succ index =>
        exact .inr ⟨index :: rest, (ih _).mpr ⟨index, rest, element, rfl, atIndex, found⟩, rfl⟩

theorem positionsAmong_ordered (inside : Element → List Position) (nodes : List Node)
    (ordered : ∀ element ∈ elements nodes, (inside element).Pairwise Position.Precedes) :
    (positionsAmong inside nodes).Pairwise Position.Precedes := by
  induction nodes with
  | nil => exact List.Pairwise.nil
  | cons node nodes ih =>
    rw [positionsAmong_cons, List.pairwise_append]
    refine ⟨?_, ?_, ?_⟩
    · cases shows : node.element? with
      | none => exact List.Pairwise.nil
      | some element =>
        have first := ordered element (by simp [elements, shows])
        exact List.pairwise_map.mpr (first.imp (Position.Precedes.within 0))
    · have later := ih fun element member => ordered element (by
        cases shows : node.element? <;> simp [elements, shows] at member ⊢ <;> simp [member])
      rw [List.pairwise_map]
      refine later.imp ?_
      intro position other before
      cases before with
      | earlier rest otherRest less => exact .earlier rest otherRest (Nat.succ_lt_succ less)
      | within index further => exact .within (index + 1) further
    · intro position first other second
      obtain ⟨rest, _, rfl⟩ := List.mem_map.mp first
      obtain ⟨shifted, member, rfl⟩ := List.mem_map.mp second
      obtain ⟨index, otherRest, _, rfl, _⟩ := (mem_positionsAmong inside nodes shifted).mp member
      exact .earlier rest otherRest (Nat.succ_pos index)

theorem positionsAmong_elements (inside : Element → List Position)
    (found : Element → List Element) (nodes : List Node)
    (located : ∀ element ∈ elements nodes,
      (inside element).map element.descend = (found element).map some) :
    (positionsAmong inside nodes).map (elementAt? nodes) =
      ((elements nodes).flatMap found).map some := by
  induction nodes with
  | nil => rfl
  | cons node nodes ih =>
    have later := ih fun element member => located element (by
      cases shows : node.element? <;> simp [elements, shows] at member ⊢ <;> simp [member])
    have shifted : ((positionsAmong inside nodes).map shift).map (elementAt? (node :: nodes)) =
        (positionsAmong inside nodes).map (elementAt? nodes) := by
      rw [List.map_map]
      refine List.map_congr_left ?_
      intro position member
      obtain ⟨index, rest, _, rfl, _⟩ := (mem_positionsAmong inside nodes position).mp member
      rfl
    rw [positionsAmong_cons, List.map_append, shifted, later]
    cases shows : node.element? with
    | none => simp [elements, shows]
    | some element =>
      have first := located element (by simp [elements, shows])
      have here : ((inside element).map (0 :: ·)).map (elementAt? (node :: nodes)) =
          (found element).map some := by
        rw [← first, List.map_map]
        refine List.map_congr_left ?_
        intro position _
        simp [elementAt?, childAt?_zero, shows]
      simp only [Option.elim, elements, List.filterMap_cons, shows, List.flatMap_cons,
        List.map_append, here]

end Node
end HtmlFragments
