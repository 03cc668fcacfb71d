import HtmlFragments.Proofs.Document.Forest
import HtmlFragments.Proofs.Markup.Freedom

/-! # Writing a forest and reading it back

The markup of a well-formed forest without neighbouring text nodes is one of the ways to spell it:
every unit that could be taken for markup is written as a reference. Main result: the markup of any
well-formed forest is read as the forest with its neighbouring text merged, unless a dotted capital
I or a byte order mark comes in the way. -/
set_option autoImplicit false

namespace HtmlFragments

open Markup
open Markup.Grammar

/-! ## Escaped text -/

/-- A way to write single units so that data of one kind can hold them. -/
def Escapes (ends : Text → Bool) (escape : CodeUnit → Text) : Prop :=
  ∀ unit, (∃ written, escape unit = 0x26 :: written ∧ ReferenceText [unit] written) ∨
    escape unit = [unit] ∧ unit ≠ 0x26 ∧ ∀ rest, ends (unit :: rest) = false

theorem Escapes.data {ends : Text → Bool} {escape : CodeUnit → Text} (escapes : Escapes ends escape)
    (ampersand : Text → Prop) (next value : Text) :
    Data ampersand ends next value (value.flatMap escape) := by
  induction value with
  | nil => exact .nil
  | cons unit value ih =>
    rw [List.flatMap_cons]
    rcases escapes unit with ⟨written, shape, reference⟩ | ⟨shape, notAmpersand, continues⟩
    · rw [shape]
      exact .reference reference ih
    · rw [shape]
      exact .literal (continues _) (fun same => absurd same notAmpersand) ih

theorem escapes_text : Escapes endsText escapeTextUnit := by
  intro unit
  unfold escapeTextUnit
  by_cases ampersand : unit = 0x26
  · subst ampersand
    exact .inl ⟨_, rfl, .named (by decide : (Text.ofString "amp", [0x26]) ∈ Reference.names)⟩
  by_cases less : unit = 0x3C
  · subst less
    exact .inl ⟨_, rfl, .named (by decide : (Text.ofString "lt", [0x3C]) ∈ Reference.names)⟩
  by_cases greater : unit = 0x3E
  · subst greater
    exact .inl ⟨_, rfl, .named (by decide : (Text.ofString "gt", [0x3E]) ∈ Reference.names)⟩
  · refine .inr ⟨?_, ampersand, CharacterData.endsText_of_ne less⟩
    simp [ampersand, less, greater]

theorem escapes_value : Escapes (CharacterData.endsQuoted 0x22) escapeValueUnit := by
  intro unit
  unfold escapeValueUnit
  by_cases ampersand : unit = 0x26
  · subst ampersand
    exact .inl ⟨_, rfl, .named (by decide : (Text.ofString "amp", [0x26]) ∈ Reference.names)⟩
  by_cases less : unit = 0x3C
  · subst less
    exact .inl ⟨_, rfl, .named (by decide : (Text.ofString "lt", [0x3C]) ∈ Reference.names)⟩
  by_cases quote : unit = 0x22
  · subst quote
    exact .inl ⟨_, rfl, .named (by decide : (Text.ofString "quot", [0x22]) ∈ Reference.names)⟩
  · refine .inr ⟨?_, ampersand, fun rest => ?_⟩
    · simp [ampersand, less, quote]
    · exact beq_eq_false_iff_ne.mpr quote

/-! ## Tags -/

variable (ampersand : Text → Prop)

theorem markup_of_ne_nil {pair : Attribute} (filled : pair.value ≠ []) :
    pair.markup =
      pair.name ++ ([] ++ 0x3D :: ([] ++ (0x22 :: (escapeValue pair.value ++ [0x22])))) := by
  have equals : Text.ofString "=\"" = [0x3D, 0x22] := rfl
  have quote : Text.ofString "\"" = [0x22] := rfl
  rw [Attribute.markup, if_neg (by simpa using filled), equals, quote]
  simp

theorem startTagMarkup_eq (tag : Text) (attributes : List Attribute) :
    startTagMarkup tag attributes =
      0x3C :: (tag ++ ((attributes.flatMap fun pair => 0x20 :: pair.markup) ++
        ([] ++ tagEndText .plain))) := by
  have less : Text.ofString "<" = [0x3C] := rfl
  have greater : Text.ofString ">" = tagEndText .plain := rfl
  rw [startTagMarkup, less, greater]
  simp

theorem endTagMarkup_eq (tag : Text) :
    endTagMarkup tag = 0x3C :: 0x2F :: (tag ++ ([] ++ [0x3E])) := by
  have opening : Text.ofString "</" = [0x3C, 0x2F] := rfl
  have greater : Text.ofString ">" = [0x3E] := rfl
  rw [endTagMarkup, opening, greater]
  simp

theorem pair_markup {pair : Attribute} (isName : IsAttributeName pair.name) (next : Text) :
    Pair ampersand next pair pair.markup := by
  by_cases empty : pair.value = []
  · obtain ⟨name, value⟩ := pair
    cases empty
    exact .bare isName
  · have quoted : Value ampersand next pair.value (0x22 :: (escapeValue pair.value ++ [0x22])) :=
      .quoted rfl (escapes_value.data ampersand _ _)
    rw [markup_of_ne_nil empty]
    exact .valued isName (Text.allOf_nil _) (Text.allOf_nil _) quoted

theorem pairs_markup {attributes : List Attribute}
    (names : ∀ pair ∈ attributes, IsAttributeName pair.name) (next : Text) :
    Pairs ampersand next attributes (attributes.flatMap fun pair => 0x20 :: pair.markup) := by
  induction attributes with
  | nil => exact .nil
  | cons pair others ih =>
    obtain ⟨isName, otherNames⟩ := List.forall_mem_cons.mp names
    have space : Text.Blank [0x20] := List.all_eq_true.mp (by decide)
    exact .cons (List.cons_ne_nil _ _) space (pair_markup ampersand isName _) (ih otherNames)

theorem startTagText_markup {tag : Text} {attributes : List Attribute} (isName : IsTagName tag)
    (names : ∀ pair ∈ attributes, IsAttributeName pair.name) (next : Text) :
    StartTagText ampersand next ⟨tag, attributes, .plain⟩ (startTagMarkup tag attributes) := by
  rw [startTagMarkup_eq]
  exact .spaced isName (Text.allOf_nil _) (pairs_markup ampersand names _)

theorem endTagText_markup {tag : Text} (isName : IsTagName tag) :
    EndTagText tag (endTagMarkup tag) := by
  rw [endTagMarkup_eq]
  exact .spaced isName (beq_self_eq_true _) (Text.allOf_nil _)

/-! ## Forests -/

theorem not_holdsEndTag_nil (tag : Text) : ¬HoldsEndTag tag [] := by
  rintro ⟨name, _, holds⟩
  exact absurd holds.length_le (by simp)

theorem rawText_children {tag : Text} {children : List Node}
    (wellFormed : Node.AllWellFormed children)
    (raw : children = [] ∨ ∃ value, children = [.text value] ∧ ¬HoldsEndTag tag value) :
    ∃ value, children = textNodes value ∧ ¬HoldsEndTag tag value ∧
      Node.contentMarkup true children = value := by
  rcases raw with rfl | ⟨value, rfl, free⟩
  · exact ⟨[], rfl, not_holdsEndTag_nil tag, rfl⟩
  · have filled : value ≠ [] := wellFormed.1
    exact ⟨value, by simp [textNodes, filled], free, by simp [Node.contentMarkup, Node.markupIn]⟩

theorem content_markup {nodes : List Node} (wellFormed : Node.AllWellFormed nodes)
    {afterText : Bool} (separated : Node.AllSeparated afterText nodes) (before next : Text)
    (undottedBefore : CodeUnit.dottedCapital ∉ before)
    (undotted : CodeUnit.dottedCapital ∉ Node.contentMarkup false nodes) :
    Content ampersand Undotted afterText before nodes (Node.contentMarkup false nodes) next := by
  induction nodes using Node.forest_induct generalizing afterText before next with
  | nil => exact .nil
  | text value rest ih =>
    obtain ⟨filled, others⟩ := wellFormed
    obtain ⟨noText, _, later⟩ := separated
    cases afterText with
    | true => cases noText rfl
    | false =>
      simp only [Node.contentMarkup, Node.markupIn, Bool.false_eq_true, if_false, List.mem_append,
        not_or] at undotted ⊢
      refine .text filled (escapes_text.data ampersand _ value) (ih others later _ _ ?_ undotted.2)
      exact List.not_mem_append undottedBefore undotted.1
  | element tag attributes children rest ihChildren ih =>
    obtain ⟨⟨isName, names, void, raw, inside⟩, others⟩ := wellFormed
    obtain ⟨_, separatedInside, later⟩ := separated
    have opening := startTagText_markup ampersand isName names
    have closing := endTagText_markup isName
    by_cases isVoid : isVoid tag = true
    · simp only [Node.contentMarkup, Node.markupIn, isVoid, if_true, List.mem_append,
        not_or] at undotted ⊢
      rw [void isVoid]
      refine .empty (opening _) (.inr isVoid) (ih others later _ _ ?_ undotted.2)
      exact List.not_mem_append undottedBefore undotted.1
    · simp only [Node.contentMarkup, Node.markupIn, isVoid, Bool.false_eq_true, if_false,
        List.append_assoc, List.mem_append, not_or] at undotted ⊢
      obtain ⟨undottedOpening, undottedInside, undottedClosing, undottedRest⟩ := undotted
      have undottedStart := List.not_mem_append undottedBefore undottedOpening
      have undottedWhole :=
        List.not_mem_append (List.not_mem_append undottedStart undottedInside) undottedClosing
      have siblings := ih others later _ next undottedWhole undottedRest
      have notVoid : HtmlFragments.isVoid tag = false := by simpa using isVoid
      cases isRaw : isRawText tag with
      | true =>
        obtain ⟨value, rfl, free, verbatim⟩ := rawText_children inside (raw isRaw)
        rw [isRaw, verbatim] at undottedInside siblings
        rw [verbatim]
        exact .rawText (opening _) notVoid isRaw free closing ⟨undottedStart, undottedInside⟩
          siblings
      | false =>
        rw [isRaw] at undottedInside siblings
        exact .element (opening _) notVoid isRaw closing
          (ihChildren inside separatedInside _ _ undottedStart undottedInside) siblings

/-- Main result: the markup of a well-formed forest is read as the forest with its neighbouring text
merged. -/
theorem Document.parse_markup {document : Document}
    (wellFormed : Node.AllWellFormed document.children)
    (undotted : CodeUnit.dottedCapital ∉ document.markup)
    (unmarked : document.markup.head? ≠ some 0xFEFF) :
    Document.parse document.markup = .ok ⟨Node.mergedAll document.children⟩ := by
  have merging : document.markup = Node.contentMarkup false (Node.mergedAll document.children) :=
    (Node.contentMarkup_mergedAll false document.children).symm
  rw [merging] at undotted unmarked ⊢
  exact parse_of_undotted (.unmarked unmarked
    (content_markup _ (Node.allWellFormed_mergedAll wellFormed)
      (Node.allSeparated_mergedAll document.children) [] [] List.not_mem_nil undotted))

/-- Two neighbouring texts, one of them with a `<`, become one; the text of the style element is
written as it stands. -/
theorem Document.parse_markup_style :
    let document : Document := ⟨[.text (Text.ofString "a<"), .text (Text.ofString "b"),
      .element (Text.ofString "STYLE") [⟨Text.ofString "q", Text.ofString "\""⟩]
        [.text (Text.ofString "p<q")]]⟩
    (Node.AllWellFormed document.children ∧ CodeUnit.dottedCapital ∉ document.markup ∧
        document.markup.head? ≠ some 0xFEFF) ∧
      document.markup = Text.ofString "a&lt;b<STYLE q=\"&quot;\">p<q</STYLE>" ∧
      Document.parse document.markup = .ok ⟨[.text (Text.ofString "a<b"),
        .element (Text.ofString "STYLE") [⟨Text.ofString "q", Text.ofString "\""⟩]
          [.text (Text.ofString "p<q")]]⟩ := by
  intro document
  have closed : ¬HoldsEndTag (Text.ofString "STYLE") (Text.ofString "p<q") := by
    rintro ⟨name, same, holds⟩
    have sameLength : (name.map CodeUnit.asciiLower).length = 5 := congrArg List.length same
    rw [List.length_map] at sameLength
    have shorter : name.length + 2 ≤ 3 := holds.length_le
    omega
  have isTagName : IsTagName (Text.ofString "STYLE") :=
    ⟨by decide, List.all_eq_true.mp (by decide)⟩
  have names : ∀ pair ∈ [(⟨Text.ofString "q", Text.ofString "\""⟩ : Attribute)],
      IsAttributeName pair.name := by
    intro pair member
    rw [List.mem_singleton.mp member]
    exact ⟨by decide, List.all_eq_true.mp (by decide)⟩
  have wellFormed : Node.AllWellFormed document.children :=
    ⟨List.cons_ne_nil _ _, List.cons_ne_nil _ _,
      ⟨isTagName, names, fun isVoid => absurd isVoid (by decide),
        fun _ => .inr ⟨_, rfl, closed⟩, List.cons_ne_nil _ _, trivial⟩, trivial⟩
  have undotted : CodeUnit.dottedCapital ∉ document.markup := by decide +kernel
  have unmarked : document.markup.head? ≠ some 0xFEFF := by decide +kernel
  exact ⟨⟨wellFormed, undotted, unmarked⟩, by decide +kernel,
    Document.parse_markup wellFormed undotted unmarked⟩

end HtmlFragments
