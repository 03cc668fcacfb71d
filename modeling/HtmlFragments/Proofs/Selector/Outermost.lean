import HtmlFragments.Proofs.Selector.Position

/-! # Outermost accepted elements

The search of a subtree stops at every element that it accepts. Its results are the accepted
elements that lie in no other accepted one, at positions in document order. -/
set_option autoImplicit false

namespace HtmlFragments

/-! ## Induction over elements -/

def Element.Inherits (motive : Element → Prop) : Prop :=
  ∀ element, (∀ child ∈ Node.elements element.children, motive child) → motive element

mutual

theorem Node.induct_element {motive : Element → Prop} (step : Element.Inherits motive) :
    ∀ (node : Node) (inner : Element), node.element? = some inner → motive inner
  | .text _, _, shows => by cases shows
  | .element _ _ children, _, shows => by
    cases shows
    exact step _ (Node.induct_elements step children)

theorem Node.induct_elements {motive : Element → Prop} (step : Element.Inherits motive) :
    ∀ (nodes : List Node), ∀ inner ∈ Node.elements nodes, motive inner
  | [], _, member => by cases member
  | node :: rest, inner, member => by
    cases shows : node.element? with
    | none =>
      rw [Node.elements, List.filterMap_cons_none shows] at member
      exact Node.induct_elements step rest inner member
    | some first =>
      rw [Node.elements, List.filterMap_cons_some shows] at member
      rcases List.mem_cons.mp member with rfl | member
      · exact Node.induct_element step node inner shows
      · exact Node.induct_elements step rest inner member

end

theorem Element.induct_children {motive : Element → Prop} (step : Element.Inherits motive)
    (element : Element) : motive element :=
  Node.induct_element step element.toNode element rfl

namespace Node

/-! ## Where the outermost accepted elements stand -/

mutual

def outermostPositions (accepts : Element → Bool) : Node → List Position
  | .text _ => []
  | .element tag attributes children =>
    if accepts ⟨tag, attributes, children⟩ then [[]]
    else outermostPositionsAmong accepts children

def outermostPositionsAmong (accepts : Element → Bool) : List Node → List Position
  | [] => []
  | node :: rest =>
    (outermostPositions accepts node).map (0 :: ·) ++
      (outermostPositionsAmong accepts rest).map shift

end

variable (accepts : Element → Bool)

theorem outermostPositionsAmong_eq (nodes : List Node) :
    outermostPositionsAmong accepts nodes =
      positionsAmong (fun element => outermostPositions accepts element.toNode) nodes := by
  induction nodes with
  | nil => rfl
  | cons node rest ih =>
    rw [outermostPositionsAmong, positionsAmong, ih]
    cases node <;> rfl

theorem outermostPositions_toNode (element : Element) :
    outermostPositions accepts element.toNode =
      if accepts element then [[]] else outermostPositionsAmong accepts element.children := rfl

theorem outermostAmong_eq (nodes : List Node) :
    outermostAmong accepts nodes =
      (elements nodes).flatMap fun element => outermost accepts element.toNode := by
  induction nodes with
  | nil => rfl
  | cons node rest ih =>
    rw [outermostAmong, ih]
    cases node <;> rfl

theorem outermost_toNode (element : Element) :
    outermost accepts element.toNode =
      if accepts element then [element] else outermostAmong accepts element.children := rfl

theorem outermostPositionsAmong_ordered (nodes : List Node) :
    (outermostPositionsAmong accepts nodes).Pairwise Position.Precedes := by
  have inside : ∀ element : Element,
      (outermostPositions accepts element.toNode).Pairwise Position.Precedes := by
    refine Element.induct_children ?_
    intro element ih
    rw [outermostPositions_toNode]
    split
    · exact List.pairwise_singleton _ _
    · rw [outermostPositionsAmong_eq]
      exact positionsAmong_ordered _ _ ih
  rw [outermostPositionsAmong_eq]
  exact positionsAmong_ordered _ _ fun element _ => inside element

theorem ne_nil_of_mem_positionsAmong {inside : Element → List Position} {nodes : List Node}
    {position : Position} (member : position ∈ positionsAmong inside nodes) : position ≠ [] := by
  obtain ⟨index, rest, _, rfl, _⟩ := (mem_positionsAmong inside nodes position).mp member
  exact List.cons_ne_nil index rest

theorem outermostPositions_elements (element : Element) :
    (outermostPositions accepts element.toNode).map element.descend =
      (outermost accepts element.toNode).map some := by
  revert element
  refine Element.induct_children ?_
  intro element ih
  rw [outermostPositions_toNode, outermost_toNode]
  split
  · rfl
  · rw [outermostAmong_eq, ← positionsAmong_elements _ _ _ ih, outermostPositionsAmong_eq]
    refine List.map_congr_left ?_
    intro position member
    exact element.descend_of_ne_nil (ne_nil_of_mem_positionsAmong member)

theorem outermostPositionsAmong_elements (nodes : List Node) :
    (outermostPositionsAmong accepts nodes).map (elementAt? nodes) =
      (outermostAmong accepts nodes).map some := by
  rw [outermostAmong_eq, outermostPositionsAmong_eq]
  exact positionsAmong_elements _ _ _ fun element _ => outermostPositions_elements accepts element

/-! ## Which positions these are -/

def AcceptedAt (nodes : List Node) (position : Position) : Prop :=
  ∃ element, elementAt? nodes position = some element ∧ accepts element = true

/-- An accepted element stands at the position and none around it. -/
def IsOutermost (nodes : List Node) (position : Position) : Prop :=
  AcceptedAt accepts nodes position ∧
    ∀ around, around <+: position → around ≠ position → ¬ AcceptedAt accepts nodes around

theorem not_acceptedAt_nil (nodes : List Node) : ¬ AcceptedAt accepts nodes [] := by
  rintro ⟨element, found, _⟩
  cases found

theorem acceptedAt_cons {nodes : List Node} {index : Nat} {element : Element}
    (atIndex : childAt? nodes index = some element) (rest : Position) :
    AcceptedAt accepts nodes (index :: rest) ↔
      (rest = [] ∧ accepts element = true) ∨ AcceptedAt accepts element.children rest := by
  have here : elementAt? nodes (index :: rest) = element.descend rest := by
    rw [elementAt?, atIndex, Option.bind_some]
  rw [AcceptedAt, here]
  cases rest with
  | nil => simp [Element.descend, not_acceptedAt_nil]
  | cons next more =>
    rw [element.descend_of_ne_nil (List.cons_ne_nil next more)]
    simp [AcceptedAt]

theorem isOutermost_cons (nodes : List Node) (index : Nat) (rest : Position) :
    IsOutermost accepts nodes (index :: rest) ↔
      ∃ element, childAt? nodes index = some element ∧
        if accepts element then rest = [] else IsOutermost accepts element.children rest := by
  constructor
  · rintro ⟨⟨last, found, accepted⟩, none⟩
    obtain ⟨element, atIndex, reached⟩ := Option.bind_eq_some_iff.mp found
    refine ⟨element, atIndex, ?_⟩
    split
    · rename_i acceptedHere
      by_cases further : rest = []
      · exact further
      · exact absurd ((acceptedAt_cons accepts atIndex []).mpr (.inl ⟨rfl, acceptedHere⟩))
          (none [index] (by simp) (by simpa using Ne.symm further))
    · rename_i refused
      have whole := (acceptedAt_cons accepts atIndex rest).mp ⟨last, found, accepted⟩
      refine ⟨whole.resolve_left fun here => refused here.2, ?_⟩
      intro around prefixed proper accepted
      exact none (index :: around) (List.cons_prefix_cons.mpr ⟨rfl, prefixed⟩)
          (by simpa using proper)
        ((acceptedAt_cons accepts atIndex around).mpr (.inr accepted))
  · rintro ⟨element, atIndex, inside⟩
    split at inside
    · rename_i accepted
      subst inside
      refine ⟨(acceptedAt_cons accepts atIndex []).mpr (.inl ⟨rfl, accepted⟩), ?_⟩
      intro around prefixed proper
      have top : around = [] := by
        rcases List.prefix_cons_iff.mp prefixed with top | ⟨more, same, short⟩
        · exact top
        · rw [List.prefix_nil.mp short] at same
          exact absurd same proper
      rw [top]
      exact not_acceptedAt_nil accepts nodes
    · rename_i refused
      refine ⟨(acceptedAt_cons accepts atIndex rest).mpr (.inr inside.1), ?_⟩
      intro around prefixed proper
      rcases List.prefix_cons_iff.mp prefixed with rfl | ⟨more, rfl, short⟩
      · exact not_acceptedAt_nil accepts nodes
      · rw [acceptedAt_cons accepts atIndex]
        rintro (⟨_, accepted⟩ | accepted)
        · exact refused accepted
        · exact inside.2 more short (by simpa using proper) accepted

theorem mem_outermostPositionsAmong (nodes : List Node) (position : Position) :
    position ∈ outermostPositionsAmong accepts nodes ↔ IsOutermost accepts nodes position := by
  induction position generalizing nodes with
  | nil =>
    constructor
    · intro member
      rw [outermostPositionsAmong_eq] at member
      exact absurd rfl (ne_nil_of_mem_positionsAmong member)
    · intro outermost
      exact absurd outermost.1 (not_acceptedAt_nil accepts nodes)
  | cons index rest ih =>
    rw [isOutermost_cons, outermostPositionsAmong_eq, mem_positionsAmong]
    constructor
    · rintro ⟨first, more, element, same, atIndex, found⟩
      obtain ⟨rfl, rfl⟩ := List.cons.inj same
      refine ⟨element, atIndex, ?_⟩
      rw [outermostPositions_toNode] at found
      split at found
      · rename_i accepted
        rw [if_pos accepted]
        exact List.mem_singleton.mp found
      · rename_i refused
        rw [if_neg refused]
        exact (ih element.children).mp found
    · rintro ⟨element, atIndex, inside⟩
      refine ⟨index, rest, element, rfl, atIndex, ?_⟩
      rw [outermostPositions_toNode]
      split at inside
      · rename_i accepted
        rw [if_pos accepted]
        exact List.mem_singleton.mpr inside
      · rename_i refused
        rw [if_neg refused]
        exact (ih element.children).mpr inside

/-! ## Accepted children -/

def acceptedPositions (nodes : List Node) : List Position :=
  positionsAmong (fun element => if accepts element then [[]] else []) nodes

theorem acceptedPositions_ordered (nodes : List Node) :
    (acceptedPositions accepts nodes).Pairwise Position.Precedes := by
  refine positionsAmong_ordered _ _ ?_
  intro element _
  split
  · exact List.pairwise_singleton _ _
  · exact List.Pairwise.nil

theorem acceptedPositions_elements (nodes : List Node) :
    (acceptedPositions accepts nodes).map (elementAt? nodes) =
      ((elements nodes).flatMap fun element => if accepts element then [element] else []).map
        some := by
  refine positionsAmong_elements _ _ _ ?_
  intro element _
  split
  · rfl
  · rfl

theorem mem_acceptedPositions (nodes : List Node) (position : Position) :
    position ∈ acceptedPositions accepts nodes ↔
      (∃ index, position = [index]) ∧ AcceptedAt accepts nodes position := by
  rw [acceptedPositions, mem_positionsAmong]
  constructor
  · rintro ⟨index, rest, element, rfl, atIndex, member⟩
    split at member
    · rename_i accepted
      have single : rest = [] := List.mem_singleton.mp member
      exact ⟨⟨index, by rw [single]⟩,
        (acceptedAt_cons accepts atIndex rest).mpr (.inl ⟨single, accepted⟩)⟩
    · cases member
  · rintro ⟨⟨index, rfl⟩, last, found, accepted⟩
    obtain ⟨element, atIndex, reached⟩ := Option.bind_eq_some_iff.mp found
    refine ⟨index, [], element, rfl, atIndex, ?_⟩
    cases reached
    rw [if_pos accepted]
    exact List.mem_singleton.mpr rfl

end Node
end HtmlFragments
