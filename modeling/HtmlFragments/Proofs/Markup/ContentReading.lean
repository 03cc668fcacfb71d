import HtmlFragments.Document.Reading
import HtmlFragments.Proofs.Markup.RawText

/-! # Reading content

Each construct is read in one step that leaves the place right after it. By induction on the
spelling of neighbouring nodes all of them are handed to the innermost open element, in order,
whatever is open and whatever comes next. -/
set_option autoImplicit false

namespace HtmlFragments.Markup

open Grammar

/-! ## What begins where -/

theorem ofText_startTag {unit : CodeUnit} (first : CodeUnit.startsTagName unit = true)
    (rest : Text) : Construct.ofText (0x3C :: unit :: rest) = .startTag := by
  unfold Construct.ofText
  split
  · rename_i same
    cases same
    exact absurd first (by decide)
  · rename_i same
    cases same
    exact absurd first (by decide)
  · rename_i same
    cases same
    exact absurd first (by decide)
  · rename_i same
    cases same
    exact if_pos first
  · rename_i other
    exact absurd rfl (other _ _)

theorem ofText_declaration {rest : Text} (noComment : ¬[0x2D, 0x2D] <+: rest) :
    Construct.ofText (0x3C :: 0x21 :: rest) = .declaration := by
  unfold Construct.ofText
  split
  · rename_i same
    cases same
  · rename_i more same
    cases same
    exact absurd ⟨more, rfl⟩ noComment
  · rfl
  · simp_all
  · simp_all

/-- The `>` at the end of a declaration does not make its beginning that of a comment. -/
theorem declaration_not_comment {inner : Text} (rest : Text)
    (noComment : ¬[0x2D, 0x2D] <+: inner) :
    ¬[0x2D, 0x2D] <+: inner ++ 0x3E :: rest := by
  rintro ⟨more, shape⟩
  match inner with
  | [] => cases shape
  | [_] => cases shape
  | first :: second :: others =>
    cases shape
    exact noComment ⟨others, rfl⟩

theorem startTagText_begins {ampersand : Text → Prop} {next written : Text} {startTag : StartTag}
    (spelled : StartTagText ampersand next startTag written) :
    ∃ unit more, written = 0x3C :: unit :: more ∧ CodeUnit.startsTagName unit = true := by
  cases spelled with
  | @spaced tag _ _ _ _ isName _ _ =>
    cases tag with
    | nil => exact absurd isName id
    | cons unit more => exact ⟨unit, _, rfl, isName.1⟩

theorem ofText_startTagText {ampersand : Text → Prop} {next written : Text} {startTag : StartTag}
    (spelled : StartTagText ampersand next startTag written) (rest : Text) :
    Construct.ofText (written ++ rest) = .startTag := by
  obtain ⟨unit, more, rfl, first⟩ := startTagText_begins spelled
  exact ofText_startTag first _

theorem endsText_startTagText {ampersand : Text → Prop} {next written : Text} {startTag : StartTag}
    (spelled : StartTagText ampersand next startTag written) (rest : Text) :
    endsText (written ++ rest) = true := by
  rw [endsText, ofText_startTagText spelled]
  rfl

theorem ne_nil_of_endsText {rest : Text} (ends : endsText rest = true) : rest ≠ [] := by
  rintro rfl
  cases ends

theorem endTagText_append_ne_nil {tag closing : Text} (closes : EndTagText tag closing)
    (rest : Text) : closing ++ rest ≠ [] := by
  cases closes
  exact List.cons_ne_nil _ _

theorem endsText_aside {written : Text} (aside : Aside written) (rest : Text) :
    endsText (written ++ rest) = true := by
  cases aside with
  | comment _ => rfl
  | @declaration inner _ noComment =>
    have declared := ofText_declaration (declaration_not_comment rest noComment)
    have split : 0x3C :: 0x21 :: (inner ++ [0x3E]) ++ rest =
        0x3C :: 0x21 :: (inner ++ 0x3E :: rest) := by simp
    rw [endsText, split, declared]
    rfl

/-! ## One step -/

theorem skipComment_between (before : Text) {inner : Text} (rest : Text)
    (closed : ¬[0x2D, 0x2D, 0x3E] <:+: inner) :
    skipComment (.between before
      (0x3C :: 0x21 :: 0x2D :: 0x2D :: (inner ++ [0x2D, 0x2D, 0x3E]) ++ rest)) =
        .ok (.between (before ++ 0x3C :: 0x21 :: 0x2D :: 0x2D :: (inner ++ [0x2D, 0x2D, 0x3E]))
          rest) := by
  have opening := Cursor.advance_between before [0x3C, 0x21, 0x2D, 0x2D]
    (inner ++ ([0x2D, 0x2D, 0x3E] ++ rest)) 4 rfl
  have index := Text.indexOf?_append rest (by decide : Text.Borderless [0x2D, 0x2D, 0x3E]) closed
  have closing := Cursor.advance_between (before ++ [0x3C, 0x21, 0x2D, 0x2D])
    (inner ++ [0x2D, 0x2D, 0x3E]) rest (inner.length + 3) (by simp)
  simp only [List.cons_append, List.append_assoc, List.nil_append] at opening index closing ⊢
  simp only [skipComment, opening, Cursor.between_rest, index, closing]

theorem skipDeclaration_between (before : Text) {inner : Text} (rest : Text)
    (closed : 0x3E ∉ inner) :
    skipDeclaration (.between before (0x3C :: 0x21 :: (inner ++ [0x3E]) ++ rest)) =
      .ok (.between (before ++ 0x3C :: 0x21 :: (inner ++ [0x3E])) rest) := by
  have absent : ¬[0x3E] <:+: 0x3C :: 0x21 :: inner := by
    intro holds
    have member : (0x3E : CodeUnit) ∈ 0x3C :: 0x21 :: inner :=
      holds.subset (List.mem_singleton_self _)
    simp only [List.mem_cons] at member
    rcases member with same | same | member
    · exact absurd same (by decide)
    · exact absurd same (by decide)
    · exact closed member
  have index := Text.indexOf?_append rest (by decide : Text.Borderless [0x3E]) absent
  have closing := Cursor.advance_between before (0x3C :: 0x21 :: (inner ++ [0x3E])) rest
    (inner.length + 2 + 1) (by simp)
  simp only [List.cons_append, List.append_assoc, List.nil_append, List.length_cons]
    at index closing ⊢
  simp only [skipDeclaration, Cursor.between_rest, index, closing]

theorem openElement_content (lowered : Text) {tag : Text} (pairs : List Attribute) (cursor : Cursor)
    (notVoid : isVoid tag = false) (notRaw : isRawText tag = false) :
    openElement lowered ⟨tag, pairs, .plain⟩ cursor = .ok (.content tag pairs, cursor) := by
  simp only [openElement, reduceCtorEq, notVoid, Bool.false_eq_true, or_self, if_false, notRaw]

namespace Progress

theorem step_aside (lowered before : Text) {written : Text} (rest : Text) (progress : Progress)
    (aside : Aside written) :
    progress.step lowered (.between before (written ++ rest)) =
      .ok (progress, .between (before ++ written) rest) := by
  cases aside with
  | comment closed =>
    have skipped := skipComment_between before rest closed
    show (skipComment _ >>= _) = _
    rw [bind_eq_of_ok skipped]
    rfl
  | @declaration inner closed noComment =>
    have skipped := skipDeclaration_between before rest closed
    have declared :
        Construct.ofText (0x3C :: 0x21 :: (inner ++ [0x3E]) ++ rest) = .declaration := by
      have shape := ofText_declaration (declaration_not_comment rest noComment)
      simpa using shape
    simp only [step, Cursor.between_rest, declared]
    rw [bind_eq_of_ok skipped]
    rfl

/-- Data that is read as text makes a text node. -/
theorem step_of_read (lowered before : Text) {value taken rest : Text} (progress : Progress)
    (continues : endsText (taken ++ rest) = false)
    (reads : CharacterData.read endsText (taken ++ rest) = (value, taken.length)) :
    progress.step lowered (.between before (taken ++ rest)) =
      .ok (progress.add (.text value), .between (before ++ taken) rest) := by
  have isText : Construct.ofText (taken ++ rest) = .text := by
    simpa [endsText] using continues
  simp only [step, Cursor.between_rest, isText, readText, reads,
    Cursor.advance_between before taken rest _ rfl]

theorem step_of_readStartTag {lowered : Text} {cursor middle after : Cursor}
    {startTag : StartTag} {opening : Opening} (progress : Progress)
    (isStartTag : Construct.ofText cursor.rest = .startTag)
    (reads : readStartTag cursor = .ok (startTag, middle))
    (opens : openElement lowered startTag middle = .ok (opening, after)) :
    progress.step lowered cursor = .ok (progress.enter opening, after) := by
  have readsOpening : readOpening lowered cursor = .ok (opening, after) :=
    (bind_eq_of_ok reads).trans opens
  simp only [step, isStartTag]
  rw [bind_eq_of_ok readsOpening]
  rfl

theorem step_text (lowered before : Text)
    {value written next : Text} (progress : Progress) (filled : value ≠ [])
    (data : Data StartsNothing endsText next value written)
    (ended : CharacterData.Ended endsText next) :
    progress.step lowered (.between before (written ++ next)) =
      .ok (progress.add (.text value), .between (before ++ written) next) :=
  step_of_read lowered before progress (data_begins CharacterData.passes_endsText data filled).2
    (CharacterData.read_of_data CharacterData.passes_endsText ended data)

theorem step_startTag (lowered before : Text)
    {next written : Text} {startTag : StartTag} {opening : Opening} {after : Cursor}
    (progress : Progress) (spelled : StartTagText StartsNothing next startTag written)
    (opens : openElement lowered startTag (.between (before ++ written) next) =
      .ok (opening, after)) :
    progress.step lowered (.between before (written ++ next)) =
      .ok (progress.enter opening, after) :=
  step_of_readStartTag progress (ofText_startTagText spelled next)
    (readStartTag_between before spelled) opens

theorem step_endTag (lowered before : Text) {closing next : Text} {inner : OpenElement}
    {outer : List OpenElement} {finished : List Node} (closes : EndTagText inner.tag closing) :
    (Progress.mk (inner :: outer) finished).step lowered (.between before (closing ++ next)) =
      .ok ((Progress.mk outer finished).add
        (.element inner.tag inner.attributes inner.children.reverse),
          .between (before ++ closing) next) := by
  have read := readEndTag_between before next closes
  have isEndTag : Construct.ofText (closing ++ next) = .endTag := by
    cases closes
    rfl
  simp only [step, Cursor.between_rest, isEndTag, leave]
  rw [bind_eq_of_ok read]
  rfl

theorem run_of_step {lowered : Text} {progress next : Progress} {cursor after : Cursor}
    (nonempty : cursor.rest ≠ []) (steps : progress.step lowered cursor = .ok (next, after)) :
    progress.run lowered cursor = next.run lowered after := by
  rw [run]
  split
  · rename_i shows
    exact absurd shows nonempty
  · split
    · rename_i failed
      rw [steps] at failed
      cases failed
    · rename_i succeeded
      rw [steps] at succeeded
      cases succeeded
      rfl

/-! ## Running over one construct -/

theorem run_aside (lowered before : Text) {written : Text} (rest : Text) (progress : Progress)
    (aside : Aside written) :
    progress.run lowered (.between before (written ++ rest)) =
      progress.run lowered (.between (before ++ written) rest) :=
  run_of_step (ne_nil_of_endsText (endsText_aside aside _))
    (step_aside lowered before rest progress aside)

theorem run_text (lowered before : Text) {value written next : Text} (progress : Progress)
    (filled : value ≠ []) (data : Data StartsNothing endsText next value written)
    (ended : CharacterData.Ended endsText next) :
    progress.run lowered (.between before (written ++ next)) =
      (progress.add (.text value)).run lowered (.between (before ++ written) next) := by
  have nonempty := (data_begins CharacterData.passes_endsText data filled).1
  exact run_of_step (by simp [nonempty]) (step_text lowered before progress filled data ended)

theorem run_startTag (lowered before : Text) {next written : Text} {startTag : StartTag}
    (opening : Opening) {after : Cursor} (progress : Progress)
    (spelled : StartTagText StartsNothing next startTag written)
    (opens : openElement lowered startTag (.between (before ++ written) next) =
      .ok (opening, after)) :
    progress.run lowered (.between before (written ++ next)) =
      (progress.enter opening).run lowered after :=
  run_of_step (ne_nil_of_endsText (endsText_startTagText spelled _))
    (step_startTag lowered before progress spelled opens)

theorem run_empty (lowered before : Text) {tag opening next : Text} {pairs : List Attribute}
    {tagEnd : TagEnd} (progress : Progress)
    (spelled : StartTagText StartsNothing next ⟨tag, pairs, tagEnd⟩ opening)
    (closed : tagEnd = .selfClosing ∨ isVoid tag = true) :
    progress.run lowered (.between before (opening ++ next)) =
      (progress.add (.element tag pairs [])).run lowered (.between (before ++ opening) next) :=
  run_startTag lowered before (.complete (.element tag pairs [])) progress spelled (if_pos closed)

theorem run_rawText {source before tag opening value closing next : Text} {pairs : List Attribute}
    (progress : Progress)
    (spelled : StartTagText StartsNothing (value ++ (closing ++ next)) ⟨tag, pairs, .plain⟩
      opening)
    (notVoid : isVoid tag = false) (raw : isRawText tag = true) (closes : EndTagText tag closing)
    (found : FoundAfter source (before ++ opening) tag value) :
    progress.run source.lowerCase (.between before (opening ++ (value ++ (closing ++ next)))) =
      (progress.add (.element tag pairs (textNodes value))).run source.lowerCase
        (.between (before ++ opening ++ value ++ closing) next) := by
  refine run_startTag source.lowerCase before (.complete (.element tag pairs (textNodes value)))
    progress spelled ?_
  simp only [openElement, reduceCtorEq, notVoid, Bool.false_eq_true, or_self, if_false, raw,
    if_true]
  rw [bind_eq_of_ok (readRawText_between found closes)]
  rfl

theorem run_opening (lowered before : Text) {tag opening next : Text} {pairs : List Attribute}
    (progress : Progress)
    (spelled : StartTagText StartsNothing next ⟨tag, pairs, .plain⟩ opening)
    (notVoid : isVoid tag = false) (notRaw : isRawText tag = false) :
    progress.run lowered (.between before (opening ++ next)) =
      (Progress.mk (⟨tag, pairs, []⟩ :: progress.openElements) progress.finished).run lowered
        (.between (before ++ opening) next) :=
  run_startTag lowered before (.content tag pairs) progress spelled
    (openElement_content lowered pairs _ notVoid notRaw)

theorem run_closing (lowered before : Text) {tag closing next : Text} {pairs : List Attribute}
    {children : List Node} {outer : List OpenElement} {finished : List Node}
    (closes : EndTagText tag closing) :
    (Progress.mk (⟨tag, pairs, children⟩ :: outer) finished).run lowered
        (.between before (closing ++ next)) =
      ((Progress.mk outer finished).add (.element tag pairs children.reverse)).run lowered
        (.between (before ++ closing) next) := by
  exact run_of_step (endTagText_append_ne_nil closes next) (step_endTag lowered before closes)

/-! ## Neighbouring nodes -/

def addAll (progress : Progress) (nodes : List Node) : Progress := nodes.foldl add progress

@[simp]
theorem addAll_nil (progress : Progress) : progress.addAll [] = progress := rfl

@[simp]
theorem addAll_cons (progress : Progress) (node : Node) (nodes : List Node) :
    progress.addAll (node :: nodes) = (progress.add node).addAll nodes := rfl

theorem addAll_inner (inner : OpenElement) (outer : List OpenElement) (finished nodes : List Node) :
    (Progress.mk (inner :: outer) finished).addAll nodes =
      ⟨{ inner with children := nodes.reverse ++ inner.children } :: outer, finished⟩ := by
  induction nodes generalizing inner with
  | nil => rfl
  | cons node nodes ih =>
    rw [addAll_cons, add, ih]
    simp

theorem addAll_top (finished nodes : List Node) :
    (Progress.mk [] finished).addAll nodes = ⟨[], nodes.reverse ++ finished⟩ := by
  induction nodes generalizing finished with
  | nil => rfl
  | cons node nodes ih =>
    rw [addAll_cons, add, ih]
    simp

end Progress

/-- What may come after the content of an element or of a document. -/
def AfterContent (next : Text) : Prop := next = [] ∨ ∃ more, next = 0x3C :: 0x2F :: more

theorem afterContent_endTag {tag closing : Text} (closes : EndTagText tag closing) (rest : Text) :
    AfterContent (closing ++ rest) := by
  cases closes with
  | spaced _ _ _ => exact .inr ⟨_, rfl⟩

/-- After a text node stands something that ends it. -/
theorem ended_of_content {ampersand : Text → Prop} {found : Text → Text → Text → Prop}
    {before text next : Text} {nodes : List Node}
    (content : Content ampersand found true before nodes text next) (follows : AfterContent next) :
    CharacterData.Ended endsText (text ++ next) := by
  cases content with
  | nil =>
    rcases follows with rfl | ⟨more, rfl⟩
    · exact .inl rfl
    · exact .inr rfl
  | aside aside _ =>
    rw [List.append_assoc]
    exact .inr (endsText_aside aside _)
  | empty opening _ _ =>
    rw [List.append_assoc]
    exact .inr (endsText_startTagText opening _)
  | rawText opening _ _ _ _ _ _ =>
    rw [List.append_assoc]
    exact .inr (endsText_startTagText opening _)
  | element opening _ _ _ _ _ =>
    rw [List.append_assoc]
    exact .inr (endsText_startTagText opening _)

/-- Neighbouring nodes are read and handed over, whatever is open and whatever comes next. -/
theorem run_content {source before text next : Text} {afterText : Bool} {nodes : List Node}
    (content : Content StartsNothing (FoundAfter source) afterText before nodes text next)
    (follows : AfterContent next) (progress : Progress) :
    progress.run source.lowerCase (.between before (text ++ next)) =
      (progress.addAll nodes).run source.lowerCase (.between (before ++ text) next) := by
  induction content generalizing progress with
  | nil => simp
  | @aside _ before written text next nodes aside _ ih =>
    rw [List.append_assoc, Progress.run_aside _ before _ progress aside, ih follows,
      List.append_assoc]
  | @text before value written text next nodes filled data later ih =>
    rw [List.append_assoc, Progress.run_text _ before progress filled data
      (ended_of_content later follows), ih follows, List.append_assoc]
    rfl
  | @empty _ before tag opening text next pairs tagEnd nodes spelled closed _ ih =>
    rw [List.append_assoc, Progress.run_empty _ before progress spelled closed, ih follows,
      List.append_assoc]
    rfl
  | rawText spelled notVoid raw _ closes found _ ih =>
    simp only [List.append_assoc] at ih ⊢
    rw [Progress.run_rawText progress spelled notVoid raw closes found, List.append_assoc,
      List.append_assoc, ih follows]
    rfl
  | @element _ before _ _ _ _ _ _ _ _ _ spelled notVoid notRaw closes _ _ ihInner ih =>
    simp only [List.append_assoc] at ihInner ih ⊢
    rw [Progress.run_opening _ before progress spelled notVoid notRaw,
      ihInner (afterContent_endTag closes _), Progress.addAll_inner,
      Progress.run_closing _ _ closes, List.append_nil, List.reverse_reverse]
    simp only [List.append_assoc]
    rw [ih follows]
    rfl

/-! ## Documents -/

theorem contentStart_marked (text : Text) :
    Document.contentStart (0xFEFF :: text) = .between [0xFEFF] text := rfl

theorem contentStart_unmarked {text : Text} (unmarked : text.head? ≠ some 0xFEFF) :
    Document.contentStart text = .between [] text := by
  unfold Document.contentStart
  split
  · exact absurd rfl unmarked
  · rfl

theorem run_of_content {source before text : Text} {nodes : List Node}
    (content : Content StartsNothing (FoundAfter source) false before nodes text []) :
    Progress.start.run source.lowerCase (.between before text) = .ok nodes := by
  have whole := run_content content (.inl rfl) Progress.start
  rw [List.append_nil] at whole
  rw [whole, Progress.start, Progress.addAll_top, Progress.run]
  simp [Progress.finish]

/-- A source that spells a forest, where every look-up finds the end of its raw text, is read as
that forest. -/
theorem parse_of_spells {nodes : List Node} {source : Text}
    (spelled : Spells StartsNothing (FoundAfter source) nodes source) :
    Document.parse source = .ok ⟨nodes⟩ := by
  rw [Document.parse_eq_ok, Document.readNodes]
  cases spelled with
  | marked content =>
    rw [contentStart_marked]
    exact run_of_content content
  | unmarked unmarked content =>
    rw [contentStart_unmarked unmarked]
    exact run_of_content content

end HtmlFragments.Markup
