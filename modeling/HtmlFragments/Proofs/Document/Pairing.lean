import HtmlFragments.Proofs.Document.Shape
import HtmlFragments.Proofs.Markup.Pairing
import HtmlFragments.Proofs.Selector.Pairing

/-! # Well-formed text in, well-formed text out

One construct after the other is taken from a well-formed source, none of them ends inside a
surrogate pair, and what it adds to the document is well formed. Main result: a well-formed source
gives only well-formed strings and a well-formed query text does too, and what is written from them
is well formed again. -/
set_option autoImplicit false

namespace HtmlFragments

namespace Node

mutual

/-- In all strings of a node and of the nodes inside it surrogates are paired. -/
def Paired : Node → Prop
  | .text value => value.Paired
  | .element tag attributes children =>
    tag.Paired ∧ (∀ pair ∈ attributes, pair.Paired) ∧ AllPaired children

def AllPaired : List Node → Prop
  | [] => True
  | node :: rest => node.Paired ∧ AllPaired rest

end

def texts : Node → List Text
  | .text value => [value]
  | .element tag attributes _ => tag :: attributes.flatMap Attribute.texts

inductive OccursIn (node : Node) : List Node → Prop where
  | here {nodes : List Node} : node ∈ nodes → OccursIn node nodes
  | inside {tag : Text} {attributes : List Attribute} {children nodes : List Node} :
      .element tag attributes children ∈ nodes → OccursIn node children → OccursIn node nodes

theorem allPaired_iff {nodes : List Node} :
    AllPaired nodes ↔ ∀ node ∈ nodes, node.Paired := by
  induction nodes with
  | nil => exact ⟨fun _ => nofun, fun _ => trivial⟩
  | cons node rest ih => rw [AllPaired, ih, List.forall_mem_cons]

theorem allPaired_reverse {nodes : List Node} : AllPaired nodes.reverse ↔ AllPaired nodes := by
  rw [allPaired_iff, allPaired_iff]
  simp only [List.mem_reverse]

theorem OccursIn.paired {node : Node} {nodes : List Node} (occurs : node.OccursIn nodes)
    (paired : AllPaired nodes) : node.Paired := by
  induction occurs with
  | here member => exact allPaired_iff.mp paired node member
  | inside member _ ih =>
    obtain ⟨_, _, children⟩ := allPaired_iff.mp paired _ member
    exact ih children

theorem Paired.of_mem_texts {node : Node} {text : Text} (paired : node.Paired)
    (member : text ∈ node.texts) : text.Paired := by
  cases node with
  | text value =>
    rw [List.mem_singleton.mp member]
    exact paired
  | element tag attributes children =>
    rcases List.mem_cons.mp member with rfl | member
    · exact paired.1
    · obtain ⟨pair, isPair, isText⟩ := List.mem_flatMap.mp member
      exact (paired.2.1 pair isPair).of_mem_texts isText

end Node

/-! ## Writing -/

theorem paired_escape {escape : CodeUnit → Text} {value : Text} (marks : List CodeUnit)
    (escapes : marks.all fun mark => !CodeUnit.isSurrogate mark && (escape mark).isWellFormed)
    (keeps : ∀ unit, unit ∉ marks → escape unit = [unit]) (paired : value.Paired) :
    Text.Paired (value.flatMap escape) := by
  refine paired.flatMap fun unit => ?_
  by_cases marked : unit ∈ marks
  · have escaped := List.all_eq_true.mp escapes unit marked
    obtain ⟨outside, wellFormed⟩ := Bool.and_eq_true_iff.mp escaped
    exact .inr ⟨by simpa using outside, Text.isWellFormed_iff.mp wellFormed⟩
  · exact .inl (keeps unit marked)

theorem paired_escapeText {value : Text} (paired : value.Paired) : (escapeText value).Paired :=
  paired_escape [0x26, 0x3C, 0x3E] (by decide)
    (fun unit other => by simp_all [escapeTextUnit]) paired

theorem paired_escapeValue {value : Text} (paired : value.Paired) : (escapeValue value).Paired :=
  paired_escape [0x26, 0x3C, 0x22] (by decide)
    (fun unit other => by simp_all [escapeValueUnit]) paired

theorem Attribute.Paired.markup {pair : Attribute} (paired : pair.Paired) : pair.markup.Paired := by
  have opening : Text.Paired (Text.ofString "=\"") := Text.isWellFormed_iff.mp rfl
  have closing : Text.Paired (Text.ofString "\"") := Text.isWellFormed_iff.mp rfl
  unfold Attribute.markup
  split
  · exact paired.name
  · exact ((paired.name.append opening).append (paired_escapeValue paired.value)).append closing

theorem paired_startTagMarkup {tag : Text} {attributes : List Attribute} (name : tag.Paired)
    (pairs : ∀ pair ∈ attributes, pair.Paired) : (startTagMarkup tag attributes).Paired := by
  have opening : Text.Paired (Text.ofString "<") := Text.isWellFormed_iff.mp rfl
  have closing : Text.Paired (Text.ofString ">") := Text.isWellFormed_iff.mp rfl
  have row : Text.Paired (attributes.flatMap fun pair => 0x20 :: pair.markup) :=
    Text.paired_flatMap fun pair member => .single (by decide) (pairs pair member).markup
  exact ((opening.append name).append row).append closing

theorem paired_endTagMarkup {tag : Text} (name : tag.Paired) : (endTagMarkup tag).Paired := by
  have opening : Text.Paired (Text.ofString "</") := Text.isWellFormed_iff.mp rfl
  have closing : Text.Paired (Text.ofString ">") := Text.isWellFormed_iff.mp rfl
  exact (opening.append name).append closing

theorem Node.AllPaired.contentMarkup {nodes : List Node} (paired : AllPaired nodes)
    (verbatim : Bool) : (contentMarkup verbatim nodes).Paired := by
  induction nodes using forest_induct generalizing verbatim with
  | nil => exact .nil
  | text value rest ih =>
    have written : Text.Paired (if verbatim then value else escapeText value) := by
      split
      · exact paired.1
      · exact paired_escapeText paired.1
    exact written.append (ih paired.2 verbatim)
  | element tag attributes children rest ihChildren ih =>
    obtain ⟨⟨name, pairs, inside⟩, others⟩ := paired
    have opening := paired_startTagMarkup name pairs
    refine Text.Paired.append ?_ (ih others verbatim)
    rw [markupIn]
    split
    · exact opening
    · exact (opening.append (ihChildren inside _)).append (paired_endTagMarkup name)

theorem Node.Paired.markup {node : Node} (paired : node.Paired) : node.markup.Paired := by
  have alone : AllPaired [node] := ⟨paired, trivial⟩
  have written : Text.Paired (node.markup ++ []) := alone.contentMarkup false
  rwa [List.append_nil] at written

/-! ## Reading -/

namespace Markup

open Grammar (EndTagText Aside)
open Node (AllPaired)
open Text (Paired)

theorem Grammar.EndTagText.after {tag closing rest : Text} (closes : EndTagText tag closing)
    (paired : Paired (closing ++ rest)) : Paired rest := by
  cases closes with
  | @spaced name spaces _ _ _ =>
    have whole : Paired (0x3C :: 0x2F :: (name ++ spaces) ++ 0x3E :: rest) := by simpa using paired
    exact (whole.around (by decide)).2

theorem Grammar.EndTagText.stopsLow {tag closing : Text} (closes : EndTagText tag closing)
    (rest : Text) : Text.Stops CodeUnit.isLowSurrogate (closing ++ rest) := by
  cases closes
  rfl

theorem Grammar.Aside.after {written rest : Text} (aside : Aside written)
    (paired : Paired (written ++ rest)) : Paired rest := by
  cases aside with
  | @comment inner _ =>
    have whole :
        Paired (0x3C :: 0x21 :: 0x2D :: 0x2D :: (inner ++ [0x2D, 0x2D]) ++ 0x3E :: rest) := by
      simpa using paired
    exact (whole.around (by decide)).2
  | @declaration inner _ _ =>
    have whole : Paired (0x3C :: 0x21 :: inner ++ 0x3E :: rest) := by simpa using paired
    exact (whole.around (by decide)).2

theorem IsStartTag.paired {before opening rest : Text} {startTag : StartTag}
    (isStartTag : IsStartTag before opening startTag) (paired : Paired (opening ++ rest)) :
    startTag.tag.Paired ∧ (∀ pair ∈ startTag.attributes, pair.Paired) ∧ Paired rest := by
  obtain ⟨unit, more, rfl, _⟩ := isStartTag.begins
  exact paired_readStartTag rfl paired (isStartTag.reads rest trivial)

theorem allPaired_textNodes {value : Text} (paired : value.Paired) :
    AllPaired (textNodes value) := by
  cases value with
  | nil => trivial
  | cons unit more => exact ⟨paired, trivial⟩

structure OpenElement.Paired (element : OpenElement) : Prop where
  tag : element.tag.Paired
  attributes : ∀ pair ∈ element.attributes, pair.Paired
  children : AllPaired element.children

namespace Progress

structure Paired (progress : Progress) : Prop where
  openElements : ∀ element ∈ progress.openElements, element.Paired
  finished : AllPaired progress.finished

theorem Paired.add {progress : Progress} {node : Node} (paired : progress.Paired)
    (added : node.Paired) : (progress.add node).Paired := by
  obtain ⟨openElements, finished⟩ := progress
  cases openElements with
  | nil => exact ⟨nofun, added, paired.finished⟩
  | cons inner outer =>
    obtain ⟨innerPaired, outerPaired⟩ := List.forall_mem_cons.mp paired.openElements
    refine ⟨List.forall_mem_cons.mpr ⟨?_, outerPaired⟩, paired.finished⟩
    exact { innerPaired with children := ⟨added, innerPaired.children⟩ }

/-- A move takes whole pairs, and all that it adds is paired. -/
theorem Moves.paired {source before taken rest : Text} {progress next : Progress}
    (moves : Moves source before progress taken rest next) (whole : Text.Paired (taken ++ rest))
    (paired : progress.Paired) : next.Paired ∧ rest.Paired := by
  cases moves with
  | @closing inner outer finished _ _ closes =>
    obtain ⟨innerPaired, outerPaired⟩ := List.forall_mem_cons.mp paired.openElements
    have outside : (Progress.mk outer finished).Paired := ⟨outerPaired, paired.finished⟩
    have closed := Node.allPaired_reverse.mpr innerPaired.children
    exact ⟨outside.add ⟨innerPaired.tag, innerPaired.attributes, closed⟩, closes.after whole⟩
  | aside aside => exact ⟨paired, aside.after whole⟩
  | @text _ unit word value _ going ended reads =>
    obtain ⟨data, later⟩ := CharacterData.paired_read CharacterData.foresees_endsText whole
    have moved : (unit :: word ++ rest).drop (word.length + 1) = rest := List.drop_left
    rw [reads rest ended] at data later
    rw [moved] at later
    exact ⟨paired.add data, later⟩
  | empty isStartTag _ =>
    obtain ⟨tag, attributes, later⟩ := isStartTag.paired whole
    exact ⟨paired.add ⟨tag, attributes, trivial⟩, later⟩
  | @rawText _ startTag opening value closing _ isStartTag _ _ closes _ =>
    rw [List.append_assoc] at whole
    obtain ⟨tag, attributes, content⟩ := isStartTag.paired whole
    rw [List.append_assoc] at content
    obtain ⟨text, later⟩ := content.cut (closes.stopsLow rest)
    exact ⟨paired.add ⟨tag, attributes, allPaired_textNodes text⟩, closes.after later⟩
  | content isStartTag _ _ =>
    obtain ⟨tag, attributes, later⟩ := isStartTag.paired whole
    refine ⟨⟨List.forall_mem_cons.mpr ⟨?_, paired.openElements⟩, paired.finished⟩, later⟩
    exact ⟨tag, attributes, trivial⟩

theorem Reaches.paired {source before text last tail : Text} {progress goal : Progress}
    (reaches : Reaches source before progress text last goal tail) (whole : text.Paired)
    (paired : progress.Paired) : goal.Paired := by
  induction reaches with
  | here => exact paired
  | further moves _ ih =>
    obtain ⟨next, later⟩ := moves.paired whole paired
    exact ih later next

end Progress
end Markup

namespace Document

theorem paired_contentStart {source : Text} (paired : source.Paired) :
    ∃ mark text, contentStart source = .between mark text ∧ text.Paired := by
  by_cases marked : source.head? = some 0xFEFF
  · obtain ⟨text, rfl⟩ := List.head?_eq_some_iff.mp marked
    exact ⟨[0xFEFF], text, Markup.contentStart_marked text, paired.after_single (by decide)⟩
  · exact ⟨[], source, Markup.contentStart_unmarked marked, paired⟩

theorem paired_of_parse {source : Text} {document : Document} (paired : source.Paired)
    (success : parse source = .ok document) : Node.AllPaired document.children := by
  have reads := parse_eq_ok.mp success
  obtain ⟨mark, text, starts, content⟩ := paired_contentStart paired
  rw [readNodes, starts] at reads
  obtain ⟨finished, same, reaches⟩ := Markup.Progress.reaches_of_run reads
  rw [same, Node.allPaired_reverse]
  exact (reaches.paired content ⟨List.forall_mem_nil _, trivial⟩).finished

end Document

/-- Main result: in a document that is read from a well-formed source every string of every node is
well formed, and so is the markup of each node and of the document. In a query that is read from a
well-formed text every string is well formed, and so is the text that is written for it. -/
theorem isWellFormed_of_parse :
    (∀ (source : Text) (document : Document), source.isWellFormed = true →
      Document.parse source = .ok document →
        (∀ node : Node, node.OccursIn document.children →
          (∀ text ∈ node.texts, Text.isWellFormed text = true) ∧
            node.markup.isWellFormed = true) ∧
        document.markup.isWellFormed = true) ∧
    ∀ (source : Text) (query : Query), source.isWellFormed = true →
      Query.parse source = .ok query →
        (∀ text ∈ query.texts, Text.isWellFormed text = true) ∧ query.text.isWellFormed = true := by
  constructor
  · intro source document wellFormed success
    have paired := Document.paired_of_parse (Text.isWellFormed_iff.mp wellFormed) success
    refine ⟨fun node occurs => ?_, Text.isWellFormed_iff.mpr (paired.contentMarkup false)⟩
    have nodePaired := occurs.paired paired
    exact ⟨fun text member => Text.isWellFormed_iff.mpr (nodePaired.of_mem_texts member),
      Text.isWellFormed_iff.mpr nodePaired.markup⟩
  · intro source query wellFormed success
    have paired := Query.paired_of_parse (Text.isWellFormed_iff.mp wellFormed) success
    exact ⟨fun text member => Text.isWellFormed_iff.mpr (paired.of_mem_texts member),
      Text.isWellFormed_iff.mpr paired.text⟩

/-- A pair in a name, in a bare value, in raw text and out of a reference, and a pair in a query. -/
theorem isWellFormed_of_parse_pairs :
    let source := Text.ofString "<p 😀=😀>&#x1F600;<style>😀</style></p>"
    let face := Text.ofString "😀"
    let nodes := [Node.element (Text.ofString "p") [⟨face, face⟩]
      [.text face, .element (Text.ofString "style") [] [.text face]]]
    let query := Query.simple { ids := [face], attributes := [⟨Text.ofString "a", face⟩] }
    (source.isWellFormed = true ∧ Document.parse source = .ok ⟨nodes⟩) ∧
      (∀ node : Node, node.OccursIn nodes → node.markup.isWellFormed = true) ∧
      (Text.ofString "#😀[a='😀']").isWellFormed = true ∧
      Query.parse (Text.ofString "#😀[a='😀']") = .ok query ∧ query.text.isWellFormed = true := by
  intro source face nodes query
  have wellFormed : source.isWellFormed = true := by decide +kernel
  have parsed : Document.parse source = .ok ⟨nodes⟩ := by decide +kernel
  have queryWellFormed : (Text.ofString "#😀[a='😀']").isWellFormed = true := by decide +kernel
  have queryParsed : Query.parse (Text.ofString "#😀[a='😀']") = .ok query := by decide +kernel
  obtain ⟨written, _⟩ := isWellFormed_of_parse.1 source ⟨nodes⟩ wellFormed parsed
  obtain ⟨_, queryWritten⟩ := isWellFormed_of_parse.2 _ query queryWellFormed queryParsed
  exact ⟨⟨wellFormed, parsed⟩, fun node occurs => (written node occurs).2, queryWellFormed,
    queryParsed, queryWritten⟩

end HtmlFragments
