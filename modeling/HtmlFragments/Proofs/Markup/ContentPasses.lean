import HtmlFragments.Proofs.Markup.ConstructReading
import HtmlFragments.Proofs.Markup.Descent
import HtmlFragments.Proofs.Markup.TagPasses

/-! # Content in passes

The descent into content with every loop written as a loop. A limit cuts off a loop that makes more
passes and content that is nested deeper. However it is limited, reading goes onward, and a limit
above the number of units of the source cuts off nothing. -/
set_option autoImplicit false

namespace HtmlFragments.Markup

open Limited (cut full)

/-! ## Parts without a loop -/

theorem forward_readEndTag (tag : Text) (cursor : Cursor) :
    Forward id cursor (full (readEndTag tag cursor)) := by
  cases reads : readEndTag tag cursor with
  | error failure => exact forward_error (Nat.le_of_eq (readEndTag_failure reads).symm)
  | ok after =>
    obtain ⟨before, place⟩ := cursor.exists_between
    rw [place] at reads ⊢
    obtain ⟨closing, rest, whole, closes, rfl⟩ := endTagText_of_readEndTag reads
    have filled : closing ≠ [] := by cases closes; exact List.cons_ne_nil _ _
    refine forward_ok ⟨closing.length, ?_⟩ ?_
    · rw [whole]
      exact (Cursor.advance_between before closing rest _ rfl).symm
    · simpa [List.length_pos_iff] using filled

theorem forward_readRawText (lowered tag : Text) (cursor : Cursor) :
    Forward Prod.snd cursor (full (readRawText lowered tag cursor)) := by
  unfold readRawText
  split
  · exact forward_error (Nat.le_add_right _ _)
  · rename_i length _
    have closing := (forward_readEndTag tag (cursor.advance length)).behind
      (cursor.movesTo_advance length)
    rw [← Limited.full_bind_full]
    exact closing.bind fun after _ => onward_ok (.refl after)

theorem forward_skipComment (cursor : Cursor) :
    Forward id cursor (full (skipComment cursor)) := by
  unfold skipComment
  split
  · refine forward_ok ((cursor.movesTo_advance 4).trans (Cursor.movesTo_advance _ _)) ?_
    show cursor.position < cursor.position + 4 + _
    omega
  · exact forward_error (Nat.le_refl _)

theorem forward_skipDeclaration (cursor : Cursor) :
    Forward id cursor (full (skipDeclaration cursor)) := by
  unfold skipDeclaration
  split
  · refine forward_ok (cursor.movesTo_advance _) ?_
    show cursor.position < cursor.position + (_ + 1)
    omega
  · exact forward_error (Nat.le_refl _)

/-! ## Elements -/

abbrev ContentReader := Text → Cursor → Limited ((List Node × Unit) × Cursor)

def elementWithin (limit : Nat) (lowered : Text) (content : ContentReader) (cursor : Cursor) :
    Limited (Node × Cursor) := do
  let (startTag, after) ← startTagWithin limit cursor
  if startTag.tagEnd = .selfClosing then
    return (.element startTag.tag startTag.attributes [], after)
  else if isVoid startTag.tag then
    return (.element startTag.tag startTag.attributes [], after)
  else if isRawText startTag.tag then
    let (value, finish) ← full (readRawText lowered startTag.tag after)
    return (.element startTag.tag startTag.attributes (textNodes value), finish)
  else
    let ((children, _), finish) ← content startTag.tag after
    return (.element startTag.tag startTag.attributes children, finish)

theorem forward_elementWithin (limit : Nat) (lowered : Text) {content : ContentReader}
    (onward : ∀ tag after, Onward Prod.snd after (content tag after)) (cursor : Cursor) :
    Forward Prod.snd cursor (elementWithin limit lowered content cursor) := by
  refine (forward_startTagWithin limit cursor).bind ?_
  rintro ⟨startTag, after⟩ _
  dsimp only
  split
  · exact onward_ok (.refl after)
  split
  · exact onward_ok (.refl after)
  split
  · refine (forward_readRawText lowered startTag.tag after).toOnward.bind ?_
    exact fun found _ => onward_ok (.refl found.2)
  · refine (onward startTag.tag after).bind ?_
    exact fun found _ => onward_ok (.refl found.2)

def NodesFrom.collected {cursor : Cursor} (found : NodesFrom cursor) :
    (List Node × Unit) × Cursor :=
  ((found.nodes, ()), found.after)

def ElementFrom.read {cursor : Cursor} (element : ElementFrom cursor) : Node × Cursor :=
  (element.node, element.after)

theorem pbind_eq {Item Value Seen : Type} {view : Value → Seen} {reading : Reading Item}
    {next : (item : Item) → reading = .ok item → Reading Value} {whole : Item → Limited Seen}
    (same : ∀ item success, whole item = full (view <$> next item success)) :
    full reading >>= whole = full (view <$> reading.pbind next) := by
  cases reading with
  | error failure => rfl
  | ok item => exact same item rfl

theorem elementWithin_eq {limit : Nat} {lowered : Text} {content : ContentReader} {cursor : Cursor}
    (nonempty : 0 < cursor.remaining) (enough : cursor.remaining < limit)
    (inside : ∀ (tag : Text) (after : Cursor), after.remaining < cursor.remaining →
      content tag after = full (NodesFrom.collected <$> descendContent lowered (some tag) after)) :
    elementWithin limit lowered content cursor =
      full (ElementFrom.read <$> descendElement lowered cursor nonempty) := by
  rw [elementWithin, startTagWithin_eq enough, descendElement]
  refine pbind_eq ?_
  rintro ⟨startTag, after⟩ started
  have moved := readStartTag_remaining_lt nonempty started
  dsimp only
  split
  · rfl
  split
  · rfl
  split
  · exact pbind_eq fun _ _ => rfl
  · rw [inside startTag.tag after moved]
    cases descendContent lowered (some startTag.tag) after <;> rfl

/-! ## Content -/

def contentLoop (limit : Nat) (lowered : Text) (parent : Option Text)
    (content : ContentReader) : Loop Node Unit where
  outcome cursor :=
    match cursor.rest, parent with
    | [], none => some (.ok ())
    | [], some tag => some (.error ⟨.endTag tag, cursor.position⟩)
    | _ :: _, _ => none
  pass cursor :=
    match Construct.ofText cursor.rest, parent with
    | .endTag, none => full (.error ⟨.textOrOpeningTag, cursor.position⟩)
    | .endTag, some tag => do
      let after ← full (readEndTag tag cursor)
      return (.ends (), after)
    | .comment, _ => do
      let after ← full (skipComment cursor)
      return (.adds [], after)
    | .declaration, _ => do
      let after ← full (skipDeclaration cursor)
      return (.adds [], after)
    | .startTag, _ => do
      let (node, after) ← elementWithin limit lowered content cursor
      return (.adds [node], after)
    | .text, _ => do
      let ((value, _), after) ← DataKind.text.loop.run limit [] cursor
      return (.adds [.text value], after)

/-- Reads content with a limit on the passes of every loop and on the depth of elements. -/
def contentWithin (lowered : Text) :
    Nat → Option Text → Cursor → Limited ((List Node × Unit) × Cursor)
  | 0, _, _ => cut
  | limit + 1, parent, cursor =>
    (contentLoop (limit + 1) lowered parent fun tag => contentWithin lowered limit (some tag)).run
      (limit + 1) [] cursor

section

variable {limit : Nat} {lowered : Text} {parent : Option Text} {content : ContentReader}
  {cursor : Cursor}

theorem contentLoop_outcome_eq_none
    (goesOn : (contentLoop limit lowered parent content).outcome cursor = none) :
    cursor.rest ≠ [] := by
  intro empty
  cases parent <;> simp [contentLoop, empty] at goesOn

theorem loop_outcome_of_isText (filled : cursor.rest ≠ [])
    (isText : Construct.ofText cursor.rest = .text) : DataKind.text.loop.outcome cursor = none := by
  obtain ⟨unit, rest, shows⟩ := List.exists_cons_of_ne_nil filled
  have continues : DataKind.text.ends (unit :: rest) = false := by
    rw [← shows]
    simp [DataKind.text, endsText, isText]
  exact DataKind.loop_outcome_of_continues shows continues

theorem contentLoop_advances
    (onward : ∀ tag after, Onward Prod.snd after (content tag after)) :
    (contentLoop limit lowered parent content).Advances where
  pass cursor goesOn := by
    have filled := contentLoop_outcome_eq_none goesOn
    dsimp only [contentLoop]
    split
    · exact forward_error (Nat.le_refl _)
    · exact (forward_readEndTag _ cursor).bind fun after _ => onward_ok (.refl after)
    · exact (forward_skipComment cursor).bind fun after _ => onward_ok (.refl after)
    · exact (forward_skipDeclaration cursor).bind fun after _ => onward_ok (.refl after)
    · exact (forward_elementWithin limit lowered onward cursor).bind fun found _ =>
        onward_ok (.refl found.2)
    · rename_i isText
      have data := DataKind.text.loop_advances.forward limit []
        (loop_outcome_of_isText filled isText)
      exact data.bind fun found _ => onward_ok (.refl found.2)
  filled cursor _ goesOn _ := contentLoop_outcome_eq_none goesOn
  outcome cursor failure comes := by
    dsimp only [contentLoop] at comes
    split at comes <;> cases comes
    exact Nat.le_refl _

theorem contentWithin_onward (lowered : Text) (limit : Nat) (parent : Option Text)
    (cursor : Cursor) : Onward Prod.snd cursor (contentWithin lowered limit parent cursor) := by
  -- Inside an element the limit is smaller by one, however many passes were made before it.
  induction limit generalizing parent cursor with
  | zero => exact ⟨nofun, nofun⟩
  | succ limit ih =>
    exact (contentLoop_advances fun tag after => ih (some tag) after).onward (limit + 1) [] cursor

theorem prepend_collected {middle : Cursor} (nodes : List Node)
    (moved : middle.remaining < cursor.remaining) (reading : Reading (NodesFrom middle)) :
    full (Loop.prepend nodes <$> NodesFrom.collected <$> reading) =
      full (NodesFrom.collected <$> NodesFrom.behind nodes moved <$> reading) := by
  cases reading <;> rfl

theorem contentLoop_unrolls (parent : Option Text) {bound : Nat} (enough : bound < limit)
    (inside : ∀ (tag : Text) (after : Cursor), after.remaining < bound →
      content tag after = full (NodesFrom.collected <$> descendContent lowered (some tag) after)) :
    (contentLoop limit lowered parent content).Unrolls bound
      fun cursor => NodesFrom.collected <$> descendContent lowered parent cursor where
  outcome cursor reading comes := by
    rw [descendContent.eq_def]
    split
    · rename_i shows
      cases parent <;> simp only [contentLoop, shows] at comes <;> cases comes <;> rfl
    · rename_i shows
      simp only [contentLoop, shows] at comes
      cases comes
  pass cursor goesOn small := by
    have filled := contentLoop_outcome_eq_none goesOn
    rw [descendContent.eq_def]
    split
    · rename_i shows
      exact absurd shows filled
    dsimp only
    split
    · rename_i isEndTag
      cases parent with
      | none => simp only [contentLoop, isEndTag]; rfl
      | some tag =>
        simp only [contentLoop, isEndTag, bind_assoc]
        exact pbind_eq fun _ _ => rfl
    · rename_i isComment
      simp only [contentLoop, isComment, bind_assoc]
      exact pbind_eq fun _ skipped => prepend_collected [] _ _
    · rename_i isDeclaration
      simp only [contentLoop, isDeclaration, bind_assoc]
      exact pbind_eq fun _ skipped => prepend_collected [] _ _
    · rename_i isStartTag
      have nonempty : 0 < cursor.remaining := List.length_pos_iff.mpr filled
      have elements := elementWithin_eq nonempty (Nat.lt_of_le_of_lt small enough)
        fun tag after moved => inside tag after (Nat.lt_of_lt_of_le moved small)
      simp only [contentLoop, isStartTag, elements]
      cases descendElement lowered cursor nonempty with
      | error failure => rfl
      | ok element => exact prepend_collected [element.node] element.remaining_lt _
    · rename_i isText
      have data := DataKind.text.run_loop (Nat.lt_of_le_of_lt small enough)
      simp only [contentLoop, isText, data]
      exact prepend_collected [.text (readText cursor).1] _ _

/-- A limit above the number of units that are left changes nothing. -/
theorem contentWithin_eq (lowered : Text) {limit : Nat} (parent : Option Text) {cursor : Cursor}
    (enough : cursor.remaining < limit) :
    contentWithin lowered limit parent cursor =
      full (NodesFrom.collected <$> descendContent lowered parent cursor) := by
  induction limit generalizing parent cursor with
  | zero => exact absurd enough (Nat.not_lt_zero _)
  | succ limit ih =>
    have onward : ∀ (tag : Text) (after : Cursor), Onward Prod.snd after _ :=
      fun tag after => contentWithin_onward lowered limit (some tag) after
    have inside : ∀ (tag : Text) (after : Cursor), after.remaining < limit → _ :=
      fun tag after small => ih (some tag) small
    have unrolls := contentLoop_unrolls parent (Nat.lt_succ_self limit) inside
    rw [contentWithin, unrolls.run (contentLoop_advances onward) [] enough
      (Nat.le_of_lt_succ enough)]
    cases descendContent lowered parent cursor <;> rfl

end

end HtmlFragments.Markup

namespace HtmlFragments.Document

def parseWithin (limit : Nat) (source : Text) : Option (Except ParseError Document) :=
  (Markup.contentWithin source.lowerCase limit none (contentStart source)).run.map fun reading => do
    let found ← ParseError.locate source Markup.Expectation.text reading
    return ⟨found.1.1⟩

theorem contentStart_remaining_le (source : Text) :
    (contentStart source).remaining ≤ source.length := by
  unfold contentStart
  split
  · exact Cursor.advance_remaining_le _ _
  · exact Nat.le_refl _

theorem parseWithin_eq {limit : Nat} {source : Text} (enough : source.length < limit) :
    parseWithin limit source = some (parse source) := by
  have inside := Nat.lt_of_le_of_lt (contentStart_remaining_le source) enough
  rw [parseWithin, Markup.contentWithin_eq source.lowerCase none inside, parse_eq_descend, descend]
  cases Markup.descendContent source.lowerCase none (contentStart source) <;> rfl

end HtmlFragments.Document
