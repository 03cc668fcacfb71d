import HtmlFragments.Document.Basic
import HtmlFragments.Proofs.Markup.Grammar

/-! # Well-formed forests and merged text

Markup cannot tell two neighbouring text nodes from one that holds both values. Merging neighbouring
text at every level keeps the markup of a forest and leaves no two text nodes side by side. -/
set_option autoImplicit false

namespace HtmlFragments.Node

open Markup.Grammar (IsTagName IsAttributeName HoldsEndTag)

/-- Induction along a forest, into the children of an element and on to its next sibling. -/
theorem forest_induct {motive : List Node → Prop} (nil : motive [])
    (text : ∀ value rest, motive rest → motive (.text value :: rest))
    (element : ∀ tag attributes children rest, motive children → motive rest →
      motive (.element tag attributes children :: rest)) :
    ∀ nodes, motive nodes
  | [] => nil
  | .text value :: rest => text value rest (forest_induct nil text element rest)
  | .element tag attributes children :: rest =>
    element tag attributes children rest (forest_induct nil text element children)
      (forest_induct nil text element rest)

mutual

/-- What markup can hold: names that are names, no empty text, void elements without children and
raw text elements with at most one text that does not hold their end tag. -/
def WellFormed : Node → Prop
  | .text value => value ≠ []
  | .element tag attributes children =>
    IsTagName tag ∧ (∀ pair ∈ attributes, IsAttributeName pair.name) ∧
      (isVoid tag = true → children = []) ∧
      (isRawText tag = true →
        children = [] ∨ ∃ value, children = [.text value] ∧ ¬HoldsEndTag tag value) ∧
      AllWellFormed children

def AllWellFormed : List Node → Prop
  | [] => True
  | node :: rest => node.WellFormed ∧ AllWellFormed rest

end

def joinText : Node → List Node → List Node
  | .text value, .text more :: rest => .text (value ++ more) :: rest
  | node, rest => node :: rest

mutual

def merged : Node → Node
  | .text value => .text value
  | .element tag attributes children => .element tag attributes (mergedAll children)

/-- The forest with every row of neighbouring text nodes as one text node, at every level. -/
def mergedAll : List Node → List Node
  | [] => []
  | node :: rest => joinText node.merged (mergedAll rest)

end

mutual

def Separated : Node → Prop
  | .text _ => True
  | .element _ _ children => AllSeparated false children

/-- No two text nodes are neighbours, given whether a text node stands before the first one. -/
def AllSeparated (afterText : Bool) : List Node → Prop
  | [] => True
  | node :: rest =>
    (afterText = true → node.isText = false) ∧ node.Separated ∧ AllSeparated node.isText rest

end

/-! ## What merging keeps -/

theorem escapeText_append (first second : Text) :
    escapeText (first ++ second) = escapeText first ++ escapeText second :=
  List.flatMap_append

theorem contentMarkup_joinText (verbatim : Bool) (node : Node) (rest : List Node) :
    contentMarkup verbatim (joinText node rest) = contentMarkup verbatim (node :: rest) := by
  unfold joinText
  split
  · cases verbatim <;> simp [contentMarkup, markupIn, escapeText_append]
  · rfl

theorem contentMarkup_mergedAll (verbatim : Bool) (nodes : List Node) :
    contentMarkup verbatim (mergedAll nodes) = contentMarkup verbatim nodes := by
  induction nodes using forest_induct generalizing verbatim with
  | nil => rfl
  | text value rest ih =>
    rw [mergedAll, contentMarkup_joinText, contentMarkup, ih, merged, contentMarkup]
  | element tag attributes children rest ihChildren ih =>
    rw [mergedAll, contentMarkup_joinText, contentMarkup, ih, merged, markupIn, ihChildren,
      contentMarkup, markupIn]

theorem allWellFormed_joinText {node : Node} {rest : List Node} (first : node.WellFormed)
    (others : AllWellFormed rest) : AllWellFormed (joinText node rest) := by
  unfold joinText
  split
  · rename_i value more rest
    have nonempty : value ≠ [] := first
    obtain ⟨_, later⟩ := others
    exact ⟨by simp [WellFormed, nonempty], later⟩
  · exact ⟨first, others⟩

theorem allWellFormed_mergedAll {nodes : List Node} (wellFormed : AllWellFormed nodes) :
    AllWellFormed (mergedAll nodes) := by
  induction nodes using forest_induct with
  | nil => trivial
  | text value rest ih => exact allWellFormed_joinText wellFormed.1 (ih wellFormed.2)
  | element tag attributes children rest ihChildren ih =>
    obtain ⟨⟨isName, names, void, raw, inside⟩, others⟩ := wellFormed
    refine allWellFormed_joinText ⟨isName, names, ?_, ?_, ihChildren inside⟩ (ih others)
    · intro isVoid
      rw [void isVoid]
      rfl
    · intro isRaw
      rcases raw isRaw with rfl | ⟨value, rfl, free⟩
      · exact .inl rfl
      · exact .inr ⟨value, rfl, free⟩

theorem allSeparated_of_head {nodes : List Node} {afterText : Bool}
    (separated : AllSeparated false nodes)
    (head : ∀ node ∈ nodes.head?, afterText = true → node.isText = false) :
    AllSeparated afterText nodes := by
  cases nodes with
  | nil => trivial
  | cons node rest => exact ⟨head node rfl, separated.2⟩

theorem allSeparated_joinText {node : Node} {rest : List Node} (first : node.Separated)
    (others : AllSeparated false rest) : AllSeparated false (joinText node rest) := by
  unfold joinText
  split
  · exact ⟨nofun, trivial, others.2.2⟩
  · rename_i noText
    refine ⟨nofun, first, allSeparated_of_head others ?_⟩
    intro next isNext isText
    cases node with
    | element _ _ _ => cases isText
    | text value =>
      cases next with
      | element _ _ _ => rfl
      | text more =>
        obtain ⟨later, rfl⟩ := List.head?_eq_some_iff.mp isNext
        exact absurd rfl (noText _ _ _ rfl)

theorem allSeparated_mergedAll (nodes : List Node) : AllSeparated false (mergedAll nodes) := by
  induction nodes using forest_induct with
  | nil => trivial
  | text value rest ih => exact allSeparated_joinText trivial ih
  | element tag attributes children rest ihChildren ih => exact allSeparated_joinText ihChildren ih

end HtmlFragments.Node
