import HtmlFragments.Proofs.Document.Shape

/-! # The size of a parsed document

Every element takes at least three units of the source, for its `<`, the first letter of its tag and
the `>`, and every attribute and every text takes at least one of its own. -/
set_option autoImplicit false

namespace HtmlFragments

namespace Node

mutual

def preorder : Node → List Node
  | .text value => [.text value]
  | .element tag attributes children =>
    .element tag attributes children :: preorderAll children

def preorderAll : List Node → List Node
  | [] => []
  | node :: rest => node.preorder ++ preorderAll rest

end

def attributes : Node → List Attribute
  | .text _ => []
  | .element _ attributes _ => attributes

mutual

/-- The fewest units that markup takes for a node. -/
def leastUnits : Node → Nat
  | .text _ => 1
  | .element _ attributes children => 3 + attributes.length + leastUnitsAll children

def leastUnitsAll : List Node → Nat
  | [] => 0
  | node :: rest => node.leastUnits + leastUnitsAll rest

end

theorem leastUnitsAll_append (nodes others : List Node) :
    leastUnitsAll (nodes ++ others) = leastUnitsAll nodes + leastUnitsAll others := by
  induction nodes with
  | nil => exact (Nat.zero_add _).symm
  | cons node rest ih =>
    rw [List.cons_append, leastUnitsAll, ih, leastUnitsAll, Nat.add_assoc]

theorem leastUnitsAll_reverse (nodes : List Node) :
    leastUnitsAll nodes.reverse = leastUnitsAll nodes := by
  induction nodes with
  | nil => rfl
  | cons node rest ih =>
    rw [List.reverse_cons, leastUnitsAll_append, ih, leastUnitsAll, leastUnitsAll, leastUnitsAll]
    exact Nat.add_comm _ _

end Node

namespace Document

def nodes (document : Document) : List Node := Node.preorderAll document.children

def elementCount (document : Document) : Nat := document.nodes.countP Node.isElement

def textCount (document : Document) : Nat := document.nodes.countP Node.isText

def attributeCount (document : Document) : Nat :=
  (document.nodes.flatMap Node.attributes).length

theorem leastUnitsAll_eq (document : Document) :
    Node.leastUnitsAll document.children =
      3 * document.elementCount + document.textCount + document.attributeCount := by
  unfold elementCount textCount attributeCount nodes
  induction document.children using Node.forest_induct with
  | nil => rfl
  | text value rest ih =>
    simp only [Node.leastUnitsAll, Node.leastUnits, Node.preorderAll, Node.preorder, Node.isElement,
      Node.isText, Node.attributes, List.countP_cons, List.flatMap_cons, List.cons_append,
      List.nil_append, ih, Bool.false_eq_true, if_true, if_false]
    omega
  | element tag attributes children rest ihChildren ih =>
    simp only [Node.leastUnitsAll, Node.leastUnits, Node.preorderAll, Node.preorder, Node.isElement,
      Node.isText, Node.attributes, List.countP_cons, List.countP_append, List.flatMap_cons,
      List.flatMap_append, List.length_append, List.cons_append, ihChildren, ih,
      Bool.false_eq_true, if_true, if_false]
    omega

end Document

namespace Markup

open Node (leastUnitsAll)

/-! ## What a start tag takes -/

theorem closing_remaining_lt {cursor : Cursor} {unit : CodeUnit} {rest : Text} {count : Nat}
    (moves : 0 < count) (shows : cursor.skipWhitespace.rest = unit :: rest) :
    (cursor.skipWhitespace.advance count).remaining < cursor.remaining := by
  have filled : 0 < cursor.skipWhitespace.remaining := by simp [Cursor.remaining, shows]
  exact Nat.lt_of_lt_of_le (cursor.skipWhitespace.advance_remaining_lt count filled moves)
    cursor.skipWhitespace_remaining_le

theorem readAttributes_length {tag : Text} {cursor after : Cursor} {found : List Attribute × TagEnd}
    (success : readAttributes tag cursor = .ok (found, after)) :
    after.remaining + found.1.length < cursor.remaining := by
  fun_induction readAttributes tag cursor generalizing found with
  | case1 =>
    cases success
    exact closing_remaining_lt Nat.two_pos ‹_›
  | case2 =>
    cases success
    exact closing_remaining_lt Nat.one_pos ‹_›
  | case3 => cases success
  | case4 cursor unit rest _ _ shows first entry next read later =>
    obtain ⟨⟨⟨others, tagEnd⟩, finish⟩, more, rest⟩ := ok_of_bind_ok success
    cases rest
    have skipped := cursor.skipWhitespace_remaining_le
    have shorter := readAttribute_remaining_lt shows first read
    have others := later more
    dsimp only [List.length_cons] at others ⊢
    omega
  | case5 => cases success
  | case6 => cases success

/-- The three units are `<`, the first letter and the end of the tag. -/
theorem readStartTag_length {cursor after : Cursor} {unit : CodeUnit} {text : Text}
    {startTag : StartTag} (shows : cursor.rest = 0x3C :: unit :: text)
    (first : CodeUnit.startsTagName unit = true)
    (success : readStartTag cursor = .ok (startTag, after)) :
    after.remaining + (3 + startTag.attributes.length) ≤ cursor.remaining := by
  obtain ⟨⟨⟨attributes, tagEnd⟩, finish⟩, row, whole⟩ := ok_of_bind_ok success
  cases whole
  have taken := readAttributes_length row
  have opened : (cursor.advance 1).remaining + 1 = cursor.remaining := by
    simp [Cursor.remaining, Cursor.advance, shows]
  have letter : CodeUnit.isLetter unit = true := first
  have inName : CodeUnit.isNameUnit unit = true := by
    simp [CodeUnit.isNameUnit, CodeUnit.isIdentifierUnit, letter]
  have named := (cursor.advance 1).span_remaining_lt CodeUnit.isNameUnit unit text
    (by simp [Cursor.advance, shows]) inName
  dsimp only at taken ⊢
  omega

theorem IsStartTag.length_le {before opening : Text} {startTag : StartTag}
    (isStartTag : IsStartTag before opening startTag) :
    3 + startTag.attributes.length ≤ opening.length := by
  obtain ⟨unit, more, begins, first⟩ := isStartTag.begins
  have read := isStartTag.reads [] trivial
  have shows : (Cursor.between before (opening ++ [])).rest = 0x3C :: unit :: more := by
    simp [begins]
  have taken := readStartTag_length shows first read
  simpa [Cursor.remaining] using taken

/-! ## What a run takes -/

theorem leastUnitsAll_textNodes (value : Text) : leastUnitsAll (textNodes value) ≤ value.length := by
  cases value with
  | nil => exact Nat.le_refl 0
  | cons unit more => exact Nat.succ_le_succ (Nat.zero_le _)

def OpenElement.leastUnits (element : OpenElement) : Nat :=
  3 + element.attributes.length + leastUnitsAll element.children

namespace Progress

/-- The fewest units for what was read. -/
def leastUnits (progress : Progress) : Nat :=
  progress.openElements.foldr (fun element rest => element.leastUnits + rest)
    (leastUnitsAll progress.finished)

theorem leastUnits_add (progress : Progress) (node : Node) :
    (progress.add node).leastUnits = progress.leastUnits + node.leastUnits := by
  obtain ⟨openElements, finished⟩ := progress
  cases openElements with
  | nil => exact Nat.add_comm _ _
  | cons inner outer =>
    simp only [add, leastUnits, List.foldr_cons, OpenElement.leastUnits, leastUnitsAll]
    omega

/-- A move takes the units for what it adds. -/
theorem Moves.leastUnits_le {source before taken rest : Text} {progress next : Progress}
    (moves : Moves source before progress taken rest next) :
    next.leastUnits ≤ progress.leastUnits + taken.length := by
  cases moves with
  | @closing inner outer finished closing _ closes =>
    rw [leastUnits_add, Node.leastUnits, Node.leastUnitsAll_reverse]
    simp only [leastUnits, List.foldr_cons, OpenElement.leastUnits]
    omega
  | aside _ => exact Nat.le_add_right _ _
  | text _ _ _ =>
    rw [leastUnits_add, Node.leastUnits, List.length_cons]
    omega
  | empty isStartTag _ =>
    rw [leastUnits_add]
    exact Nat.add_le_add_left isStartTag.length_le _
  | @rawText _ startTag opening value closing _ isStartTag _ _ _ _ =>
    have opened := isStartTag.length_le
    have texts := leastUnitsAll_textNodes value
    rw [leastUnits_add, Node.leastUnits, List.length_append, List.length_append]
    omega
  | content isStartTag _ _ =>
    have opened := isStartTag.length_le
    simp only [enter, leastUnits, List.foldr_cons, OpenElement.leastUnits, leastUnitsAll]
    omega

theorem Reaches.leastUnits_le {source before text last tail : Text} {progress goal : Progress}
    (reaches : Reaches source before progress text last goal tail) :
    goal.leastUnits + tail.length ≤ progress.leastUnits + text.length := by
  induction reaches with
  | here => exact Nat.le_refl _
  | further moves _ ih =>
    have moved := moves.leastUnits_le
    rw [List.length_append]
    omega

end Progress
end Markup

namespace Document

/-- A source is at least as long as the markup that its nodes need. -/
theorem leastUnitsAll_of_parse {source : Text} {document : Document}
    (success : parse source = .ok document) :
    Node.leastUnitsAll document.children ≤ source.length := by
  have reads := parse_eq_ok.mp success
  obtain ⟨mark, text, whole, starts, _⟩ := Markup.exists_contentStart source
  rw [readNodes, starts] at reads
  obtain ⟨finished, same, reaches⟩ := Markup.Progress.reaches_of_run reads
  have taken : Node.leastUnitsAll finished ≤ text.length := by
    simpa [Markup.Progress.leastUnits, Markup.Progress.start, Node.leastUnitsAll]
      using reaches.leastUnits_le
  rw [same, Node.leastUnitsAll_reverse, whole, List.length_append]
  omega

end Document
end HtmlFragments
