import HtmlFragments.Proofs.Document.Normalisation

/-! # When the markup of a document is read as that document

Markup does not show what stood between two neighbouring texts, its first unit can be taken for a
byte order mark, and after a dotted capital I the end of raw text may be looked up at the wrong
place. Main result: a document that was read is the one that is read from its markup exactly where
none of the three happens. -/
set_option autoImplicit false

namespace HtmlFragments

open Markup
open Markup.Grammar

namespace Node

mutual

/-- Where the markup of a node stands after `before` in the source, the look-up for the end of every
raw text in it stops right after that text. -/
def FoundIn (source before : Text) : Node → Prop
  | .text _ => True
  | .element tag attributes children =>
    isVoid tag = false →
      if isRawText tag then
        FoundAfter source (before ++ startTagMarkup tag attributes) tag
          (contentMarkup true children)
      else AllFoundIn source (before ++ startTagMarkup tag attributes) children

def AllFoundIn (source before : Text) : List Node → Prop
  | [] => True
  | node :: rest => node.FoundIn source before ∧ AllFoundIn source (before ++ node.markup) rest

end

/-! ## The texts that a forest begins with -/

def leadingText : List Node → Text
  | .text value :: rest => value ++ leadingText rest
  | _ => []

def afterLeadingText : List Node → List Node
  | .text _ :: rest => afterLeadingText rest
  | nodes => nodes

def BeginsWithoutText (nodes : List Node) : Prop := ∀ node ∈ nodes.head?, node.isText = false

variable {permits : Text → Text → Prop} {nodes : List Node}

theorem contentMarkup_leadingText (nodes : List Node) :
    contentMarkup false nodes =
      escapeText (leadingText nodes) ++ contentMarkup false (afterLeadingText nodes) := by
  induction nodes using forest_induct with
  | nil => rfl
  | text value rest ih =>
    rw [contentMarkup, leadingText, afterLeadingText, escapeText_append, List.append_assoc, ← ih]
    rfl
  | element => rfl

theorem beginsWithoutText_afterLeadingText (nodes : List Node) :
    BeginsWithoutText (afterLeadingText nodes) := by
  induction nodes using forest_induct with
  | nil => exact nofun
  | text value rest ih => exact ih
  | element tag attributes children rest =>
    intro node isFirst
    cases isFirst
    rfl

theorem AllShaped.afterLeadingText (shaped : AllShaped permits nodes) :
    AllShaped permits (afterLeadingText nodes) := by
  induction nodes using forest_induct with
  | nil => trivial
  | text value rest ih => exact ih shaped.2
  | element => exact shaped

theorem AllShaped.beginsWithoutText (shaped : AllShaped permits nodes)
    (nothing : leadingText nodes = []) : BeginsWithoutText nodes := by
  cases nodes with
  | nil => exact nofun
  | cons node rest =>
    cases node with
    | text value => exact absurd (List.append_eq_nil_iff.mp nothing).1 shaped.1
    | element tag attributes children =>
      intro node isFirst
      cases isFirst
      rfl

theorem beginsWithoutText_of_separated (separated : AllSeparated true nodes) :
    BeginsWithoutText nodes := by
  cases nodes with
  | nil => exact nofun
  | cons node rest =>
    intro first isFirst
    cases isFirst
    exact separated.1 rfl

theorem allSeparated_cons {node : Node} {rest : List Node} (first : node.Separated)
    (others : AllSeparated node.isText rest) : AllSeparated false (node :: rest) :=
  ⟨nofun, first, others⟩

theorem allSeparated_textNodes (value : Text) : AllSeparated false (textNodes value) := by
  cases value with
  | nil => trivial
  | cons unit more => exact allSeparated_cons trivial trivial

/-! ## The markup of an element -/

theorem markup_of_isVoid {tag : Text} (void : isVoid tag = true) (attributes : List Attribute)
    (children : List Node) :
    (Node.element tag attributes children).markup = startTagMarkup tag attributes := by
  simp [markup, markupIn, void]

theorem markup_of_notVoid {tag : Text} (notVoid : isVoid tag = false) (attributes : List Attribute)
    (children : List Node) :
    (Node.element tag attributes children).markup =
      startTagMarkup tag attributes ++
        (contentMarkup (isRawText tag) children ++ endTagMarkup tag) := by
  simp [markup, markupIn, notVoid]

theorem exists_markup_element (tag : Text) (attributes : List Attribute) (children : List Node) :
    ∃ more, (Node.element tag attributes children).markup =
      startTagMarkup tag attributes ++ more := by
  cases void : isVoid tag with
  | true => exact ⟨[], by rw [markup_of_isVoid void, List.append_nil]⟩
  | false => exact ⟨_, markup_of_notVoid void attributes children⟩

theorem children_of_isRawText {tag : Text} {attributes : List Attribute} {children : List Node}
    (shaped : (Node.element tag attributes children).Shaped permits) (raw : isRawText tag = true) :
    children = textNodes (contentMarkup true children) := by
  obtain ⟨_, _, _, single, inside⟩ := shaped
  rcases single raw with rfl | ⟨value, rfl, _⟩
  · rfl
  · have filled : value ≠ [] := inside.1
    simp [textNodes, contentMarkup, markupIn, filled]

end Node

namespace Markup.Progress

open Node

variable {permits : Text → Text → Prop} {source before next : Text} {nodes outcome : List Node}

/-! ## Running over the markup of a document that was read -/

theorem ended_markup (shaped : AllShaped permits nodes) (noText : BeginsWithoutText nodes)
    (follows : AfterContent next) :
    CharacterData.Ended endsText (contentMarkup false nodes ++ next) := by
  cases nodes with
  | nil =>
    rcases follows with rfl | ⟨more, rfl⟩
    · exact .inl rfl
    · exact .inr rfl
  | cons node rest =>
    cases node with
    | text value => cases noText _ rfl
    | element tag attributes children =>
      obtain ⟨isName, names, _⟩ := shaped.1
      obtain ⟨more, begins⟩ := exists_markup_element tag attributes children
      have spelled := startTagText_markup StartsNothing isName names []
      refine .inr ?_
      rw [contentMarkup, ← markup, begins, List.append_assoc, List.append_assoc]
      exact endsText_startTagText spelled _

theorem run_escapeText {value rest : Text} (lowered before : Text) (progress : Progress)
    (filled : value ≠ []) (ended : CharacterData.Ended endsText rest) :
    progress.run lowered (.between before (escapeText value ++ rest)) =
      (progress.add (.text value)).run lowered (.between (before ++ escapeText value) rest) :=
  run_text lowered before progress filled (escapes_text.data _ _ _) ended

theorem run_leadingText {value : Text} (lowered before : Text) (progress : Progress)
    (shaped : AllShaped permits nodes) (filled : value ++ leadingText nodes ≠ [])
    (follows : AfterContent next) :
    progress.run lowered
        (.between before (escapeText value ++ (contentMarkup false nodes ++ next))) =
      (progress.add (.text (value ++ leadingText nodes))).run lowered
        (.between (before ++ escapeText (value ++ leadingText nodes))
          (contentMarkup false (afterLeadingText nodes) ++ next)) := by
  have ended := ended_markup shaped.afterLeadingText (beginsWithoutText_afterLeadingText nodes)
    follows
  have runs := run_escapeText lowered before progress filled ended
  rw [contentMarkup_leadingText nodes]
  simp only [escapeText_append, List.append_assoc] at runs ⊢
  exact runs

/-- An element is read as it is where every look-up in it succeeds and its children are read as they
are. -/
theorem run_element {tag : Text} {attributes : List Attribute} {children : List Node}
    (shaped : (Node.element tag attributes children).Shaped permits)
    (found : (Node.element tag attributes children).FoundIn source before)
    (inner : ∀ progress : Progress,
      AllFoundIn source (before ++ startTagMarkup tag attributes) children →
      progress.run source.lowerCase (.between (before ++ startTagMarkup tag attributes)
          (contentMarkup false children ++ (endTagMarkup tag ++ next))) =
        (progress.addAll children).run source.lowerCase
          (.between (before ++ startTagMarkup tag attributes ++ contentMarkup false children)
            (endTagMarkup tag ++ next)))
    (progress : Progress) :
    progress.run source.lowerCase
        (.between before ((Node.element tag attributes children).markup ++ next)) =
      (progress.add (.element tag attributes children)).run source.lowerCase
        (.between (before ++ (Node.element tag attributes children).markup) next) := by
  obtain ⟨isName, names, void, _, _⟩ := id shaped
  have opening := startTagText_markup StartsNothing isName names
  have closing := endTagText_markup isName
  cases isVoid : isVoid tag with
  | true =>
    rw [markup_of_isVoid isVoid, run_empty _ _ progress (opening _) (.inr isVoid), void isVoid]
  | false =>
    rw [FoundIn, isVoid] at found
    rw [markup_of_notVoid isVoid]
    simp only [List.append_assoc]
    cases raw : isRawText tag with
    | true =>
      rw [raw] at found
      rw [run_rawText progress (opening _) isVoid raw closing (found rfl),
        ← children_of_isRawText shaped raw]
      simp only [List.append_assoc]
    | false =>
      rw [raw] at found
      rw [run_opening _ _ progress (opening _) isVoid raw, inner _ (found rfl), addAll_inner,
        run_closing _ _ closing, List.append_nil, List.reverse_reverse]
      simp only [List.append_assoc]

/-- What a forest is written as is read as the forest, if no two texts are neighbours and every
look-up succeeds. -/
theorem run_markup (shaped : AllShaped permits nodes) {afterText : Bool}
    (separated : AllSeparated afterText nodes) (found : AllFoundIn source before nodes)
    (follows : AfterContent next) (progress : Progress) :
    progress.run source.lowerCase (.between before (contentMarkup false nodes ++ next)) =
      (progress.addAll nodes).run source.lowerCase
        (.between (before ++ contentMarkup false nodes) next) := by
  induction nodes using forest_induct generalizing afterText before next progress with
  | nil => simp [contentMarkup]
  | text value rest ih =>
    obtain ⟨filled, others⟩ := shaped
    obtain ⟨_, _, later⟩ := separated
    have ended := ended_markup others (beginsWithoutText_of_separated later) follows
    rw [contentMarkup, List.append_assoc, ← List.append_assoc before]
    exact (run_escapeText _ before progress filled ended).trans
      (ih others later found.2 follows (progress.add (.text value)))
  | element tag attributes children rest ihChildren ih =>
    obtain ⟨first, others⟩ := shaped
    obtain ⟨_, inside, later⟩ := separated
    obtain ⟨isName, _, _, _, shapedInside⟩ := id first
    rw [contentMarkup, List.append_assoc, ← List.append_assoc before]
    refine (run_element first found.1 ?_ progress).trans
      (ih others later found.2 follows (progress.add _))
    intro inner foundInside
    exact ihChildren shapedInside inside foundInside
      (afterContent_endTag (endTagText_markup isName) _) inner

/-! ## What a run over markup shows -/

/-- An element that keeps its place in the outcome has no neighbouring texts inside it, and every
look-up in it succeeds. -/
theorem element_of_run {tag : Text} {attributes : List Attribute} {children : List Node}
    (shaped : (Node.element tag attributes children).Shaped permits)
    (inner : ∀ progress : Progress, LeadsTo outcome (progress.addAll children) →
      progress.run source.lowerCase (.between (before ++ startTagMarkup tag attributes)
        (contentMarkup false children ++ (endTagMarkup tag ++ next))) = .ok outcome →
      AllSeparated false children ∧
        AllFoundIn source (before ++ startTagMarkup tag attributes) children)
    (progress : Progress)
    (leads : LeadsTo outcome (progress.add (.element tag attributes children)))
    (success : progress.run source.lowerCase
      (.between before ((Node.element tag attributes children).markup ++ next)) = .ok outcome) :
    AllSeparated false children ∧ (Node.element tag attributes children).FoundIn source before := by
  obtain ⟨isName, names, void, _, _⟩ := id shaped
  have opening := startTagText_markup StartsNothing isName names
  have closing := endTagText_markup isName
  cases isVoid : isVoid tag with
  | true =>
    rw [void isVoid]
    exact ⟨trivial, fun notVoid => absurd (isVoid.symm.trans notVoid) nofun⟩
  | false =>
    rw [markup_of_notVoid isVoid, List.append_assoc, List.append_assoc] at success
    rw [FoundIn]
    cases raw : isRawText tag with
    | true =>
      rw [raw] at success
      rw [children_of_isRawText shaped raw] at leads
      have found := foundAfter_of_run (endTagText_append_ne_nil closing next) (opening _) isVoid raw
        success leads
      refine ⟨?_, fun _ => found⟩
      rw [children_of_isRawText shaped raw]
      exact allSeparated_textNodes _
    | false =>
      rw [raw, run_opening _ _ progress (opening _) isVoid raw] at success
      have inside : LeadsTo outcome
          ((Progress.mk (⟨tag, attributes, []⟩ :: progress.openElements) progress.finished).addAll
            children) := by
        rw [addAll_inner]
        refine .inside [] ?_
        rw [List.append_nil, List.append_nil, List.reverse_reverse]
        exact leads
      obtain ⟨separated, found⟩ := inner _ inside success
      exact ⟨separated, fun _ => found⟩

/-- What keeps its place in the outcome was read as it was written. -/
theorem separated_and_found_of_run (shaped : AllShaped permits nodes) (follows : AfterContent next)
    (progress : Progress) (leads : LeadsTo outcome (progress.addAll nodes))
    (success : progress.run source.lowerCase
      (.between before (contentMarkup false nodes ++ next)) = .ok outcome) :
    AllSeparated false nodes ∧ AllFoundIn source before nodes := by
  induction nodes using forest_induct generalizing before next progress with
  | nil => exact ⟨trivial, trivial⟩
  | text value rest ih =>
    obtain ⟨filled, others⟩ := shaped
    have whole : value ++ leadingText rest ≠ [] := List.append_ne_nil_of_left_ne_nil filled _
    rw [contentMarkup, List.append_assoc] at success
    have runs := run_leadingText source.lowerCase before progress others whole follows
    have same : value = value ++ leadingText rest :=
      Node.text.inj (add_unique (leadsTo_of_addAll leads)
        (leadsTo_of_run (runs.symm.trans success)))
    have noText := others.beginsWithoutText (List.self_eq_append_right.mp same)
    have onward := run_escapeText source.lowerCase before progress filled
      (ended_markup others noText follows)
    obtain ⟨separated, found⟩ := ih others follows _ leads (onward.symm.trans success)
    have later : AllSeparated true rest :=
      allSeparated_of_head separated fun node isFirst _ => noText node isFirst
    exact ⟨allSeparated_cons trivial later, trivial, found⟩
  | element tag attributes children rest ihChildren ih =>
    obtain ⟨first, others⟩ := shaped
    obtain ⟨isName, _, _, _, inside⟩ := id first
    have afterChildren : ∀ rest, AfterContent (endTagMarkup tag ++ rest) :=
      afterContent_endTag (endTagText_markup isName)
    rw [contentMarkup, ← markup, List.append_assoc] at success
    obtain ⟨separatedInside, found⟩ := element_of_run first
      (ihChildren inside (afterChildren _)) progress (leadsTo_of_addAll leads) success
    rw [run_element first found] at success
    · obtain ⟨separated, foundRest⟩ := ih others follows _ leads success
      exact ⟨allSeparated_cons separatedInside separated, found, foundRest⟩
    · intro inner foundInside
      exact run_markup inside separatedInside foundInside (afterChildren _) inner

/-- A run that begins with an element, or at the end, reads no text first. -/
theorem not_leadsTo_text_of_run {lowered : Text} (shaped : AllShaped permits nodes)
    (noText : BeginsWithoutText nodes) (progress : Progress) (value : Text)
    (success : progress.run lowered (.between before (contentMarkup false nodes)) = .ok outcome) :
    ¬LeadsTo outcome (progress.add (.text value)) := by
  intro leads
  cases nodes with
  | nil =>
    obtain ⟨openElements, finished⟩ := progress
    rw [run] at success
    cases openElements with
    | cons inner outer => cases success
    | nil =>
      cases success
      cases leads with
      | top front =>
        have shorter := front.length_le
        simp only [List.length_reverse, List.length_cons] at shorter
        omega
  | cons node rest =>
    cases node with
    | text other => cases noText _ rfl
    | element tag attributes children =>
      obtain ⟨isName, names, _⟩ := shaped.1
      obtain ⟨more, begins⟩ := exists_markup_element tag attributes children
      have spelled := startTagText_markup StartsNothing isName names
      rw [contentMarkup, ← markup, begins, List.append_assoc] at success
      obtain ⟨startTag, _, opening, _, _, opens, onward⟩ := opening_of_run (spelled _) success
      obtain ⟨others, otherLeads⟩ := leadsTo_of_openElement opens onward
      cases add_unique leads otherLeads

/-- No text is read from itself without its first unit: a second text that made up for the unit
would be read together with the first one, and be missing after it. -/
theorem not_leadsTo_longer_of_run {lowered value : Text} {unit : CodeUnit}
    (shaped : AllShaped permits nodes) (progress : Progress)
    (success : progress.run lowered
      (.between before (escapeText value ++ contentMarkup false nodes)) = .ok outcome) :
    ¬LeadsTo outcome (progress.addAll (.text (unit :: value) :: nodes)) := by
  intro leads
  by_cases nothing : value ++ leadingText nodes = []
  · obtain ⟨rfl, none⟩ := List.append_eq_nil_iff.mp nothing
    exact not_leadsTo_text_of_run shaped (shaped.beginsWithoutText none) _ _ success
      (leadsTo_of_addAll leads)
  · have runs := run_leadingText lowered before progress shaped nothing (.inl rfl)
    rw [List.append_nil, List.append_nil] at runs
    rw [runs] at success
    have same : unit :: value = value ++ leadingText nodes :=
      Node.text.inj (add_unique (leadsTo_of_addAll leads) (leadsTo_of_run success))
    have longer := congrArg List.length same
    cases nodes with
    | nil => simp [leadingText] at longer
    | cons second later =>
      cases second with
      | element tag attributes children => simp [leadingText] at longer
      | text other =>
        rw [← same] at success
        exact not_leadsTo_text_of_run shaped.afterLeadingText
          (beginsWithoutText_afterLeadingText _) _ other success (leadsTo_of_addAll leads)

end Markup.Progress

/-! ## Byte order marks -/

theorem escapeText_begins {unit first : CodeUnit} {value rest more : Text}
    (notAmpersand : first ≠ 0x26)
    (begins : escapeText (unit :: value) ++ rest = first :: more) :
    unit = first ∧ more = escapeText value ++ rest := by
  rw [escapeText, List.flatMap_cons] at begins
  rcases escapes_text unit with ⟨written, shape, _⟩ | ⟨shape, _, _⟩
  · rw [shape] at begins
    exact absurd (List.cons.inj begins).1.symm notAmpersand
  · rw [shape] at begins
    exact ⟨(List.cons.inj begins).1, (List.cons.inj begins).2.symm⟩

namespace Document

open Node Markup.Progress

variable {permits : Text → Text → Prop} {document : Document}

/-- A byte order mark would be skipped, and the first text be read without it. -/
theorem unmarked_of_parse_markup (shaped : AllShaped permits document.children)
    (success : parse document.markup = .ok document) : document.markup.head? ≠ some 0xFEFF := by
  intro marked
  obtain ⟨more, begins⟩ := List.head?_eq_some_iff.mp marked
  obtain ⟨nodes⟩ := document
  rw [parse_eq_ok, readNodes, begins, contentStart_marked] at success
  cases nodes with
  | nil => cases begins
  | cons node rest =>
    cases node with
    | element tag attributes children =>
      obtain ⟨after, opening⟩ := exists_markup_element tag attributes children
      rw [markup, contentMarkup, ← Node.markup, opening, startTagMarkup_eq] at begins
      cases begins
    | text value =>
      obtain ⟨filled, others⟩ := shaped
      obtain ⟨unit, value, rfl⟩ := List.exists_cons_of_ne_nil filled
      obtain ⟨rfl, rfl⟩ := escapeText_begins (by decide) begins
      exact not_leadsTo_longer_of_run others _ success (leadsTo_start_addAll _)

theorem parse_markup_of_found (shaped : AllShaped permits document.children)
    (unmarked : document.markup.head? ≠ some 0xFEFF)
    (separated : AllSeparated false document.children)
    (found : AllFoundIn document.markup [] document.children) :
    parse document.markup = .ok document := by
  obtain ⟨nodes⟩ := document
  have runs := run_markup shaped separated found (.inl rfl) Progress.start
  rw [List.append_nil, Progress.start, addAll_top, List.append_nil] at runs
  rw [parse_eq_ok, readNodes, contentStart_unmarked unmarked]
  refine runs.trans ?_
  rw [Progress.run]
  simp [Progress.finish]

theorem separated_and_found_of_parse (shaped : AllShaped permits document.children)
    (unmarked : document.markup.head? ≠ some 0xFEFF)
    (success : parse document.markup = .ok document) :
    AllSeparated false document.children ∧ AllFoundIn document.markup [] document.children := by
  obtain ⟨nodes⟩ := document
  rw [parse_eq_ok, readNodes, contentStart_unmarked unmarked] at success
  refine separated_and_found_of_run shaped (.inl rfl) Progress.start (leadsTo_start_addAll nodes) ?_
  rw [List.append_nil]
  exact success

/-- Main result. Three things can come between a document that was read and the one that is read
from its markup: a byte order mark, neighbouring texts, and a look-up for the end of raw text. The
look-ups all succeed where no dotted capital I stands. -/
theorem parse_markup_iff {source : Text} (success : parse source = .ok document) :
    (parse document.markup = .ok document ↔
      document.markup.head? ≠ some 0xFEFF ∧ AllSeparated false document.children ∧
        AllFoundIn document.markup [] document.children) ∧
      (CodeUnit.dottedCapital ∉ source → CodeUnit.dottedCapital ∉ document.markup →
        (parse document.markup = .ok document ↔
          document.markup.head? ≠ some 0xFEFF ∧ AllSeparated false document.children)) := by
  have shaped := shaped_of_readNodes (parse_eq_ok.mp success)
  have reread : parse document.markup = .ok document → document.markup.head? ≠ some 0xFEFF ∧
      AllSeparated false document.children ∧
        AllFoundIn document.markup [] document.children := by
    intro again
    have unmarked := unmarked_of_parse_markup shaped again
    exact ⟨unmarked, separated_and_found_of_parse shaped unmarked again⟩
  refine ⟨⟨reread, ?_⟩, ?_⟩
  · rintro ⟨unmarked, separated, found⟩
    exact parse_markup_of_found shaped unmarked separated found
  · intro undotted undottedMarkup
    constructor
    · intro again
      obtain ⟨unmarked, separated, _⟩ := reread again
      exact ⟨unmarked, separated⟩
    · rintro ⟨unmarked, separated⟩
      exact parse_markup_of_separated (allWellFormed_of_parse undotted success) separated
        undottedMarkup unmarked

/-- The script is looked up before the dotted capital I that stands behind it. -/
theorem parse_markup_iff_script :
    let source := Text.ofString "<!--c--><script >a<b</SCRIPT>&#x130;<br/>"
    let document : Document := ⟨[.element (Text.ofString "script") [] [.text (Text.ofString "a<b")],
      .text [CodeUnit.dottedCapital], .element (Text.ofString "br") [] []]⟩
    parse source = .ok document ∧ parse document.markup = .ok document := by
  intro source document
  have success : parse source = .ok document := by decide +kernel
  have unmarked : document.markup.head? ≠ some 0xFEFF := by decide +kernel
  have separated : AllSeparated false document.children :=
    allSeparated_cons (allSeparated_textNodes (Text.ofString "a<b"))
      (allSeparated_cons trivial ⟨fun _ => rfl, trivial, trivial⟩)
  have found : AllFoundIn document.markup [] document.children := by
    refine ⟨?_, trivial, fun notVoid => absurd notVoid (by decide +kernel), trivial⟩
    intro _
    rw [if_pos (by decide +kernel)]
    show Text.indexOf? _ _ = _
    decide +kernel
  exact ⟨success, (parse_markup_iff success).1.mpr ⟨unmarked, separated, found⟩⟩

/-- A byte order mark that was written as a reference is skipped when it stands as it is. -/
theorem not_forall_parse_markup :
    ¬∀ (source : Text) (document : Document),
      parse source = .ok document → parse document.markup = .ok document := by
  intro always
  let document : Document := ⟨[.text (0xFEFF :: Text.ofString "a")]⟩
  have success : parse (Text.ofString "&#xFEFF;a") = .ok document := by decide +kernel
  have again : parse document.markup = .ok ⟨[.text (Text.ofString "a")]⟩ := by decide +kernel
  have same := (always _ _ success).symm.trans again
  exact absurd same (by decide +kernel)

end Document
end HtmlFragments
