import HtmlFragments.Proofs.Markup.ContentReading

/-! # Reading by recursive descent

Content can be read without a stack: reading the content of an element calls itself for every
element inside. Main result: the descent and the loop with a stack of open elements give the same
document for every source, or the same failure at the same place. -/
set_option autoImplicit false

namespace HtmlFragments

namespace Markup

/-- Reads on with what was read and with the knowledge that it was. -/
def Reading.pbind {Item Value : Type} (reading : Reading Item)
    (next : (item : Item) → reading = .ok item → Reading Value) : Reading Value :=
  match reading, next with
  | .error failure, _ => .error failure
  | .ok item, next => next item rfl

theorem pbind_bind {Item Middle Value : Type} {reading : Reading Item}
    {next : (item : Item) → reading = .ok item → Reading Middle} {later : Middle → Reading Value}
    {whole : Item → Reading Value}
    (same : ∀ item success, next item success >>= later = whole item) :
    reading.pbind next >>= later = reading >>= whole := by
  cases reading with
  | error failure => rfl
  | ok item => exact same item rfl

structure NodesFrom (cursor : Cursor) where
  nodes : List Node
  after : Cursor
  remaining_le : after.remaining ≤ cursor.remaining

structure ElementFrom (cursor : Cursor) where
  node : Node
  after : Cursor
  remaining_lt : after.remaining < cursor.remaining

def NodesFrom.behind {cursor middle : Cursor} (first : List Node)
    (moved : middle.remaining < cursor.remaining) (others : NodesFrom middle) :
    NodesFrom cursor where
  nodes := first ++ others.nodes
  after := others.after
  remaining_le := Nat.le_trans others.remaining_le (Nat.le_of_lt moved)

mutual

/-- Reads nodes up to the end tag of `parent`, which is read as well, or at the top level up to the
end of the source. -/
def descendContent (lowered : Text) (parent : Option Text) (cursor : Cursor) :
    Reading (NodesFrom cursor) :=
  match shows : cursor.rest with
  | [] =>
    match parent with
    | none => .ok ⟨[], cursor, Nat.le_refl _⟩
    | some tag => .error ⟨.endTag tag, cursor.position⟩
  | _ :: _ =>
    have nonempty : 0 < cursor.remaining := by simp [Cursor.remaining, shows]
    match isText : Construct.ofText cursor.rest with
    | .endTag =>
      match parent with
      | none => .error ⟨.textOrOpeningTag, cursor.position⟩
      | some tag =>
        (readEndTag tag cursor).pbind fun after closed =>
          .ok ⟨[], after, Nat.le_of_lt (readEndTag_remaining_lt closed)⟩
    | .comment =>
      (skipComment cursor).pbind fun after skipped =>
        .behind [] (skipComment_remaining_lt nonempty skipped) <$>
          descendContent lowered parent after
    | .declaration =>
      (skipDeclaration cursor).pbind fun after skipped =>
        .behind [] (skipDeclaration_remaining_lt nonempty skipped) <$>
          descendContent lowered parent after
    | .startTag => do
      let element ← descendElement lowered cursor nonempty
      .behind [element.node] element.remaining_lt <$> descendContent lowered parent element.after
    | .text =>
      .behind [.text (readText cursor).1] (readText_remaining_lt nonempty isText) <$>
        descendContent lowered parent (readText cursor).2
termination_by (cursor.remaining, 1)
decreasing_by
  · exact Prod.Lex.left _ _ (skipComment_remaining_lt nonempty skipped)
  · exact Prod.Lex.left _ _ (skipDeclaration_remaining_lt nonempty skipped)
  · exact Prod.Lex.right _ Nat.zero_lt_one
  · exact Prod.Lex.left _ _ element.remaining_lt
  · exact Prod.Lex.left _ _ (readText_remaining_lt nonempty isText)

def descendElement (lowered : Text) (cursor : Cursor) (nonempty : 0 < cursor.remaining) :
    Reading (ElementFrom cursor) :=
  (readStartTag cursor).pbind fun (startTag, after) started =>
    have moved : after.remaining < cursor.remaining := readStartTag_remaining_lt nonempty started
    if startTag.tagEnd = .selfClosing then
      .ok ⟨.element startTag.tag startTag.attributes [], after, moved⟩
    else if isVoid startTag.tag then
      .ok ⟨.element startTag.tag startTag.attributes [], after, moved⟩
    else if isRawText startTag.tag then
      (readRawText lowered startTag.tag after).pbind fun (value, finish) raw =>
        .ok ⟨.element startTag.tag startTag.attributes (textNodes value), finish,
          Nat.lt_trans (readRawText_remaining_lt raw) moved⟩
    else do
      let content ← descendContent lowered (some startTag.tag) after
      return ⟨.element startTag.tag startTag.attributes content.nodes, content.after,
        Nat.lt_of_le_of_lt content.remaining_le moved⟩
termination_by (cursor.remaining, 0)
decreasing_by exact Prod.Lex.left _ _ moved

end

namespace Progress

def parent? (progress : Progress) : Option Text := progress.openElements.head?.map OpenElement.tag

def resume (lowered : Text) (progress : Progress) (after : Cursor) : Reading (List Node) :=
  match progress.openElements with
  | [] => .ok progress.finished.reverse
  | inner :: outer =>
    let outside : Progress := { progress with openElements := outer }
    (outside.add (.element inner.tag inner.attributes inner.children.reverse)).run lowered after

@[simp]
theorem parent?_add (progress : Progress) (node : Node) :
    (progress.add node).parent? = progress.parent? := by
  obtain ⟨openElements, finished⟩ := progress
  cases openElements <;> rfl

theorem run_of_end {lowered : Text} (progress : Progress) {cursor : Cursor}
    (shows : cursor.rest = []) : progress.run lowered cursor = progress.finish cursor := by
  rw [run]
  split
  · rfl
  · rename_i filled
    rw [shows] at filled
    cases filled

theorem run_of_nonempty {lowered : Text} (progress : Progress) {cursor : Cursor}
    (nonempty : cursor.rest ≠ []) :
    progress.run lowered cursor =
      progress.step lowered cursor >>= fun found => found.1.run lowered found.2 := by
  cases steps : progress.step lowered cursor with
  | ok found => exact run_of_step nonempty steps
  | error failure =>
    rw [run]
    split
    · rename_i shows
      exact absurd shows nonempty
    · split
      · rename_i failed
        rw [steps] at failed
        cases failed
        rfl
      · rename_i succeeded
        rw [steps] at succeeded
        cases succeeded

end Progress

/-! ## The loop follows the descent -/

/-- Whatever is open at the cursor, the loop does what the descent does there and then goes on. -/
def Follows (lowered : Text) (cursor : Cursor) : Prop :=
  ∀ progress : Progress, progress.run lowered cursor =
    descendContent lowered progress.parent? cursor >>= fun found =>
      (progress.addAll found.nodes).resume lowered found.after

theorem Progress.resume_content (lowered : Text) (progress : Progress) (tag : Text)
    (attributes : List Attribute) (nodes : List Node) (after : Cursor) :
    ((progress.enter (.content tag attributes)).addAll nodes).resume lowered after =
      (progress.add (.element tag attributes nodes)).run lowered after := by
  rw [enter, addAll_inner, resume]
  simp only [List.append_nil, List.reverse_reverse]

theorem Progress.leave_run (lowered : Text) (inner : OpenElement) (outer : List OpenElement)
    (finished : List Node) (cursor : Cursor) :
    ((Progress.mk (inner :: outer) finished).leave cursor >>= fun found =>
        found.1.run lowered found.2) =
      readEndTag inner.tag cursor >>= (Progress.mk (inner :: outer) finished).resume lowered := by
  rw [leave, bind_assoc]
  rfl

theorem run_descendElement {lowered : Text} {cursor : Cursor}
    (further : ∀ after : Cursor, after.remaining < cursor.remaining → Follows lowered after)
    (nonempty : 0 < cursor.remaining) (progress : Progress) :
    (descendElement lowered cursor nonempty >>= fun element =>
        (progress.add element.node).run lowered element.after) =
      readOpening lowered cursor >>= fun found => (progress.enter found.1).run lowered found.2 := by
  rw [descendElement, readOpening, bind_assoc]
  refine pbind_bind ?_
  rintro ⟨startTag, after⟩ started
  have moved := readStartTag_remaining_lt nonempty started
  simp only [openElement]
  by_cases selfClosing : startTag.tagEnd = .selfClosing
  · rw [if_pos selfClosing, if_pos (.inl selfClosing)]
    rfl
  by_cases void : isVoid startTag.tag = true
  · rw [if_neg selfClosing, if_pos void, if_pos (.inr void)]
    rfl
  rw [if_neg selfClosing, if_neg void, if_neg (not_or.mpr ⟨selfClosing, void⟩)]
  by_cases raw : isRawText startTag.tag = true
  · rw [if_pos raw, if_pos raw, bind_assoc]
    exact pbind_bind fun found _ => rfl
  · have inside := further after moved (progress.enter (.content startTag.tag startTag.attributes))
    simp only [Progress.resume_content] at inside
    rw [if_neg raw, if_neg raw, bind_assoc]
    exact inside.symm

/-- One round of the loop at the end of the source or at a construct. -/
theorem follows_of_further {lowered : Text} {cursor : Cursor}
    (further : ∀ after : Cursor, after.remaining < cursor.remaining → Follows lowered after) :
    Follows lowered cursor := by
  intro progress
  rw [descendContent.eq_def]
  split
  · rename_i shows
    rw [progress.run_of_end shows]
    obtain ⟨openElements, finished⟩ := progress
    cases openElements with
    | nil => rfl
    | cons inner outer => rfl
  · rename_i unit rest shows
    have filled : cursor.rest ≠ [] := by simp [shows]
    have nonempty : 0 < cursor.remaining := by simp [Cursor.remaining, shows]
    rw [progress.run_of_nonempty filled]
    symm
    dsimp only
    split
    · rename_i isEndTag
      simp only [Progress.step, isEndTag]
      obtain ⟨openElements, finished⟩ := progress
      cases openElements with
      | nil => rfl
      | cons inner outer =>
        rw [Progress.leave_run]
        exact pbind_bind fun after _ => rfl
    · rename_i isComment
      simp only [Progress.step, isComment, bind_assoc]
      refine pbind_bind fun after skipped => ?_
      rw [bind_map_left]
      exact (further after (skipComment_remaining_lt nonempty skipped) progress).symm
    · rename_i isDeclaration
      simp only [Progress.step, isDeclaration, bind_assoc]
      refine pbind_bind fun after skipped => ?_
      rw [bind_map_left]
      exact (further after (skipDeclaration_remaining_lt nonempty skipped) progress).symm
    · rename_i isStartTag
      have onward : ∀ element : ElementFrom cursor, _ := fun element =>
        further element.after element.remaining_lt (progress.add element.node)
      simp only [Progress.parent?_add] at onward
      simp only [Progress.step, isStartTag, bind_assoc, pure_bind, bind_map_left]
      rw [← run_descendElement further nonempty progress]
      simp only [onward]
      rfl
    · rename_i isText
      have onward := further _ (readText_remaining_lt nonempty isText)
        (progress.add (.text (readText cursor).1))
      rw [Progress.parent?_add] at onward
      simp only [Progress.step, isText]
      rw [bind_map_left]
      exact onward.symm

theorem follows (lowered : Text) (cursor : Cursor) : Follows lowered cursor := by
  induction size : cursor.remaining using Nat.strongRecOn generalizing cursor with
  | ind length ih => exact follows_of_further fun after less => ih _ (size ▸ less) after rfl

end Markup

namespace Document

def descend (source : Text) : Except ParseError Document := do
  let found ← ParseError.locate source Markup.Expectation.text
    (Markup.descendContent source.lowerCase none (contentStart source))
  return ⟨found.nodes⟩

theorem parse_eq_descend (source : Text) : parse source = descend source := by
  have whole := Markup.follows source.lowerCase (contentStart source) .start
  have top : Markup.Progress.start.parent? = none := rfl
  rw [top] at whole
  rw [parse, readNodes, whole, descend]
  cases Markup.descendContent source.lowerCase none (contentStart source) with
  | error failure => rfl
  | ok found =>
    have finished : (Markup.Progress.start.addAll found.nodes).resume source.lowerCase found.after =
        .ok found.nodes := by
      rw [Markup.Progress.start, Markup.Progress.addAll_top, Markup.Progress.resume]
      simp only [List.append_nil, List.reverse_reverse]
    rw [bind_eq_of_ok rfl, finished]
    rfl

end Document
end HtmlFragments
