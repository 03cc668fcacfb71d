import HtmlFragments.Proofs.Document.Forest
import HtmlFragments.Proofs.Markup.Movement

/-! # The shape of a parsed document

Main result: in a document that was read every name is a name, no text is empty, void elements have
no children and raw text elements have at most one text. Unless the source holds a dotted capital I,
that text does not hold the end tag of its element. -/
set_option autoImplicit false

namespace HtmlFragments

open Markup.Grammar (IsTagName IsAttributeName HoldsEndTag)

namespace Node

mutual

/-- The shape of a node, given which values the raw text elements may have. -/
def Shaped (permits : Text → Text → Prop) : Node → Prop
  | .text value => value ≠ []
  | .element tag attributes children =>
    IsTagName tag ∧ (∀ pair ∈ attributes, IsAttributeName pair.name) ∧
      (isVoid tag = true → children = []) ∧
      (isRawText tag = true →
        children = [] ∨ ∃ value, children = [.text value] ∧ permits tag value) ∧
      AllShaped permits children

def AllShaped (permits : Text → Text → Prop) : List Node → Prop
  | [] => True
  | node :: rest => node.Shaped permits ∧ AllShaped permits rest

end

theorem allShaped_iff {permits : Text → Text → Prop} {nodes : List Node} :
    AllShaped permits nodes ↔ ∀ node ∈ nodes, node.Shaped permits := by
  induction nodes with
  | nil => exact ⟨fun _ => nofun, fun _ => trivial⟩
  | cons node rest ih => rw [AllShaped, ih, List.forall_mem_cons]

theorem allShaped_reverse {permits : Text → Text → Prop} {nodes : List Node} :
    AllShaped permits nodes.reverse ↔ AllShaped permits nodes := by
  rw [allShaped_iff, allShaped_iff]
  simp only [List.mem_reverse]

theorem AllShaped.mono {permits others : Text → Text → Prop} {nodes : List Node}
    (shaped : AllShaped permits nodes)
    (weaker : ∀ tag value, permits tag value → others tag value) : AllShaped others nodes := by
  induction nodes using forest_induct with
  | nil => trivial
  | text value rest ih => exact ⟨shaped.1, ih shaped.2⟩
  | element tag attributes children rest ihChildren ih =>
    obtain ⟨⟨isName, names, void, raw, inside⟩, others⟩ := shaped
    refine ⟨⟨isName, names, void, ?_, ihChildren inside⟩, ih others⟩
    intro isRaw
    rcases raw isRaw with empty | ⟨value, single, permitted⟩
    · exact .inl empty
    · exact .inr ⟨value, single, weaker tag value permitted⟩

theorem allWellFormed_iff {nodes : List Node} :
    AllWellFormed nodes ↔ AllShaped (fun tag value => ¬HoldsEndTag tag value) nodes := by
  induction nodes using forest_induct with
  | nil => exact Iff.rfl
  | text value rest ih => exact and_congr Iff.rfl ih
  | element tag attributes children rest ihChildren ih =>
    rw [AllWellFormed, AllShaped, WellFormed, Shaped, ihChildren, ih]

end Node

namespace Markup

open Grammar (EndTagText)
open Node (AllShaped allShaped_iff)

variable {permits : Text → Text → Prop}

theorem shaped_textNodes {tag value : Text} (permitted : permits tag value) :
    (textNodes value = [] ∨ ∃ text, textNodes value = [.text text] ∧ permits tag text) ∧
      AllShaped permits (textNodes value) := by
  cases value with
  | nil => exact ⟨.inl rfl, trivial⟩
  | cons unit more => exact ⟨.inr ⟨_, rfl, permitted⟩, List.cons_ne_nil _ _, trivial⟩

structure OpenElement.Shaped (permits : Text → Text → Prop) (element : OpenElement) : Prop where
  tag : IsTagName element.tag
  names : ∀ pair ∈ element.attributes, IsAttributeName pair.name
  notVoid : isVoid element.tag = false
  notRaw : isRawText element.tag = false
  children : AllShaped permits element.children

theorem OpenElement.Shaped.closed {element : OpenElement} (shaped : element.Shaped permits) :
    (Node.element element.tag element.attributes element.children.reverse).Shaped permits := by
  refine ⟨shaped.tag, shaped.names, ?_, ?_, Node.allShaped_reverse.mpr shaped.children⟩
  · intro void
    rw [shaped.notVoid] at void
    cases void
  · intro raw
    rw [shaped.notRaw] at raw
    cases raw

namespace Progress

structure Shaped (permits : Text → Text → Prop) (progress : Progress) : Prop where
  openElements : ∀ element ∈ progress.openElements, element.Shaped permits
  finished : AllShaped permits progress.finished

theorem shaped_start : start.Shaped permits := ⟨nofun, trivial⟩

theorem Shaped.add {progress : Progress} {node : Node} (shaped : progress.Shaped permits)
    (fits : node.Shaped permits) : (progress.add node).Shaped permits := by
  obtain ⟨openElements, finished⟩ := progress
  cases openElements with
  | nil => exact ⟨nofun, fits, shaped.finished⟩
  | cons inner outer =>
    obtain ⟨innerShaped, outerShaped⟩ := List.forall_mem_cons.mp shaped.openElements
    refine ⟨List.forall_mem_cons.mpr ⟨?_, outerShaped⟩, shaped.finished⟩
    exact { innerShaped with children := ⟨fits, innerShaped.children⟩ }

/-- A move keeps the shape, given that the raw text it may take is permitted. -/
theorem Moves.shaped {source before taken rest : Text} {progress next : Progress}
    (moves : Moves source before progress taken rest next)
    (whole : source = before ++ (taken ++ rest))
    (permitted : ∀ front tag value back, source = front ++ (value ++ back) →
      isRawText tag = true → FoundAfter source front tag value → permits tag value)
    (shaped : progress.Shaped permits) : next.Shaped permits := by
  cases moves with
  | @closing inner outer finished _ _ closes =>
    obtain ⟨innerShaped, outerShaped⟩ := List.forall_mem_cons.mp shaped.openElements
    have outside : (Progress.mk outer finished).Shaped permits := ⟨outerShaped, shaped.finished⟩
    exact outside.add innerShaped.closed
  | aside _ => exact shaped
  | @text _ unit word value _ going ended reads =>
    apply shaped.add
    have filled := CharacterData.read_ne_nil going
    rw [← List.cons_append, reads rest ended] at filled
    exact filled
  | empty isStartTag _ =>
    exact shaped.add ⟨isStartTag.tag, isStartTag.names, fun _ => rfl, fun _ => .inl rfl, trivial⟩
  | @rawText _ startTag opening value closing _ isStartTag notClosed raw closes found =>
    have permittedValue := permitted (before ++ opening) startTag.tag value (closing ++ rest)
      (by simp [whole]) raw found
    obtain ⟨single, inside⟩ := shaped_textNodes permittedValue
    apply shaped.add
    refine ⟨isStartTag.tag, isStartTag.names, ?_, fun _ => single, inside⟩
    intro void
    exact absurd (.inr void) notClosed
  | content isStartTag notClosed notRaw =>
    obtain ⟨_, notVoid⟩ := not_or.mp notClosed
    refine ⟨List.forall_mem_cons.mpr ⟨?_, shaped.openElements⟩, shaped.finished⟩
    exact ⟨isStartTag.tag, isStartTag.names, by simpa using notVoid, notRaw, trivial⟩

theorem Reaches.shaped {source before text last tail : Text} {progress goal : Progress}
    (reaches : Reaches source before progress text last goal tail)
    (whole : source = before ++ text)
    (permitted : ∀ front tag value back, source = front ++ (value ++ back) →
      isRawText tag = true → FoundAfter source front tag value → permits tag value)
    (shaped : progress.Shaped permits) : goal.Shaped permits := by
  induction reaches with
  | here => exact shaped
  | further moves _ ih => exact ih (by simp [whole]) (moves.shaped whole permitted shaped)

end Progress
end Markup

namespace Document

/-- Without a dotted capital I in the source, raw text does not hold its end tag. -/
def FreeIn (source tag value : Text) : Prop :=
  CodeUnit.dottedCapital ∉ source → ¬HoldsEndTag tag value

theorem shaped_of_readNodes {source : Text} {nodes : List Node}
    (success : readNodes source = .ok nodes) : Node.AllShaped (FreeIn source) nodes := by
  obtain ⟨mark, text, whole, starts, _⟩ := Markup.exists_contentStart source
  rw [readNodes, starts] at success
  obtain ⟨finished, rfl, reaches⟩ := Markup.Progress.reaches_of_run success
  have permitted : ∀ front tag value back, source = front ++ (value ++ back) →
      isRawText tag = true → Markup.FoundAfter source front tag value →
        FreeIn source tag value := by
    intro front tag value back split raw found undotted
    subst split
    simp only [List.mem_append, not_or] at undotted
    exact Markup.free_of_foundAfter raw undotted.1 undotted.2.1 found
  exact Node.allShaped_reverse.mpr
    (reaches.shaped whole permitted Markup.Progress.shaped_start).finished

/-- Main result: the shape of every document that was read, at every depth. -/
theorem shaped_of_parse {source : Text} {document : Document}
    (success : parse source = .ok document) :
    Node.AllShaped (FreeIn source) document.children :=
  shaped_of_readNodes (parse_eq_ok.mp success)

theorem shaped_of_parse_paragraph :
    parse (Text.ofString "<p a=1>&lt;<br><STYLE>a</p>b</style ></p>") =
        .ok ⟨[.element (Text.ofString "p") [⟨Text.ofString "a", Text.ofString "1"⟩]
          [.text (Text.ofString "<"), .element (Text.ofString "br") [] [],
            .element (Text.ofString "STYLE") [] [.text (Text.ofString "a</p>b")]]]⟩ ∧
      Node.AllShaped (FreeIn (Text.ofString "<p a=1>&lt;<br><STYLE>a</p>b</style ></p>"))
        [.element (Text.ofString "p") [⟨Text.ofString "a", Text.ofString "1"⟩]
          [.text (Text.ofString "<"), .element (Text.ofString "br") [] [],
            .element (Text.ofString "STYLE") [] [.text (Text.ofString "a</p>b")]]] := by
  have reads : parse (Text.ofString "<p a=1>&lt;<br><STYLE>a</p>b</style ></p>") =
      .ok ⟨[.element (Text.ofString "p") [⟨Text.ofString "a", Text.ofString "1"⟩]
        [.text (Text.ofString "<"), .element (Text.ofString "br") [] [],
          .element (Text.ofString "STYLE") [] [.text (Text.ofString "a</p>b")]]]⟩ := by
    decide +kernel
  exact ⟨reads, shaped_of_parse reads⟩

/-- Without a dotted capital I in its source, a document that was read is well formed. -/
theorem allWellFormed_of_parse {source : Text} {document : Document}
    (undotted : CodeUnit.dottedCapital ∉ source) (success : parse source = .ok document) :
    Node.AllWellFormed document.children := by
  have shaped := shaped_of_readNodes (parse_eq_ok.mp success)
  rw [Node.allWellFormed_iff]
  exact shaped.mono fun _ _ free => free undotted

end Document
end HtmlFragments
