import HtmlFragments.Proofs.Document.Size
import HtmlFragments.Proofs.Markup.ContentPasses

/-! # Reading always goes on

Main result: no part of the reader ends before the place where it began, every pass through one of
its loops that does not fail moves the cursor forward, and so a limit above the length of the source,
on the passes of every loop and on the depth of elements, is never reached. What was read is no
larger than its source allows. -/
set_option autoImplicit false

namespace HtmlFragments

namespace Markup

open Limited (full)

variable {cursor : Cursor}

/-! ## The readers themselves -/

theorem onward_descendContent (lowered : Text) (parent : Option Text) (cursor : Cursor) :
    Onward NodesFrom.after cursor (full (descendContent lowered parent cursor)) := by
  have limited := contentWithin_onward lowered (cursor.remaining + 1) parent cursor
  rw [contentWithin_eq lowered parent (Nat.lt_succ_self _)] at limited
  cases reads : descendContent lowered parent cursor with
  | error failure =>
    rw [reads] at limited
    exact onward_error (limited.fails failure rfl)
  | ok found =>
    rw [reads] at limited
    exact onward_ok (limited.moves found.collected rfl)

theorem forward_readStartTag (cursor : Cursor) :
    Forward Prod.snd cursor (full (readStartTag cursor)) := by
  rw [← startTagWithin_eq (Nat.lt_succ_self _)]
  exact forward_startTagWithin _ cursor

theorem onward_readAttribute (cursor : Cursor) :
    Onward Prod.snd cursor (full (readAttribute cursor)) := by
  rw [← attributeWithin_eq (Nat.lt_succ_self _)]
  exact (onward_attributeWithin _ cursor).behind (cursor.movesTo_span _)

theorem forward_readValue (cursor : Cursor) : Forward Prod.snd cursor (full (readValue cursor)) := by
  rw [← valueWithin_eq (Nat.lt_succ_self _)]
  exact forward_valueWithin _ cursor

theorem onward_openElement (lowered : Text) (startTag : StartTag) (cursor : Cursor) :
    Onward Prod.snd cursor (full (openElement lowered startTag cursor)) := by
  simp only [openElement]
  split
  · exact onward_ok (.refl cursor)
  split
  · have raw := (forward_readRawText lowered startTag.tag cursor).toOnward
    rw [← Limited.full_bind_full]
    exact raw.bind fun found _ => onward_ok (.refl found.2)
  · exact onward_ok (.refl cursor)

theorem forward_leave (progress : Progress) (cursor : Cursor) :
    Forward Prod.snd cursor (full (progress.leave cursor)) := by
  unfold Progress.leave
  split
  · exact forward_error (Nat.le_refl _)
  · rw [← Limited.full_bind_full]
    exact (forward_readEndTag _ cursor).bind fun after _ => onward_ok (.refl after)

theorem forward_step (lowered : Text) (progress : Progress) (filled : cursor.rest ≠ []) :
    Forward Prod.snd cursor (full (progress.step lowered cursor)) := by
  unfold Progress.step
  split
  · exact forward_leave progress cursor
  · rw [← Limited.full_bind_full]
    exact (forward_skipComment cursor).bind fun after _ => onward_ok (.refl after)
  · rw [← Limited.full_bind_full]
    exact (forward_skipDeclaration cursor).bind fun after _ => onward_ok (.refl after)
  · rw [← Limited.full_bind_full, readOpening, ← Limited.full_bind_full, bind_assoc]
    refine (forward_readStartTag cursor).bind fun started _ => ?_
    exact (onward_openElement lowered started.1 started.2).bind fun opened _ =>
      onward_ok (.refl opened.2)
  · rename_i isText
    have data := DataKind.text.loop_advances.forward (cursor.remaining + 1) []
      (loop_outcome_of_isText filled isText)
    rw [DataKind.text.run_loop (Nat.lt_succ_self _)] at data
    exact forward_ok (data.moves _ rfl) (data.strictly _ rfl)

/-- From a cursor on no reader ends before it and none fails at a place before it. -/
structure NeverBackwards (lowered : Text) (cursor : Cursor) : Prop where
  step : ∀ progress : Progress, cursor.rest ≠ [] →
    Forward Prod.snd cursor (full (progress.step lowered cursor))
  content : ∀ parent, Onward NodesFrom.after cursor (full (descendContent lowered parent cursor))
  startTag : Forward Prod.snd cursor (full (readStartTag cursor))
  pair : Onward Prod.snd cursor (full (readAttribute cursor))
  value : Forward Prod.snd cursor (full (readValue cursor))
  endTag : ∀ tag, Forward id cursor (full (readEndTag tag cursor))
  rawText : ∀ tag, Forward Prod.snd cursor (full (readRawText lowered tag cursor))
  comment : Forward id cursor (full (skipComment cursor))
  declaration : Forward id cursor (full (skipDeclaration cursor))
  text : cursor.MovesTo (readText cursor).2

theorem neverBackwards (lowered : Text) (cursor : Cursor) : NeverBackwards lowered cursor where
  step progress filled := forward_step lowered progress filled
  content parent := onward_descendContent lowered parent cursor
  startTag := forward_readStartTag cursor
  pair := onward_readAttribute cursor
  value := forward_readValue cursor
  endTag tag := forward_readEndTag tag cursor
  rawText tag := forward_readRawText lowered tag cursor
  comment := forward_skipComment cursor
  declaration := forward_skipDeclaration cursor
  text := cursor.movesTo_advance _

/-! ## The loops -/

/-- Every loop of the reader advances, however the loops inside it are limited. -/
structure LoopsAdvance (lowered : Text) (limit : Nat) : Prop where
  content : ∀ parent, (contentLoop (limit + 1) lowered parent fun tag =>
    contentWithin lowered limit (some tag)).Advances
  attributes : ∀ tag, (attributeLoop limit tag).Advances
  quotedValue : ∀ quote, (DataKind.quoted quote).loop.Advances
  bareValue : DataKind.bare.loop.Advances
  text : DataKind.text.loop.Advances

theorem loopsAdvance (lowered : Text) (limit : Nat) : LoopsAdvance lowered limit where
  content _ := contentLoop_advances fun tag => contentWithin_onward lowered limit (some tag)
  attributes tag := attributeLoop_advances limit tag
  quotedValue quote := (DataKind.quoted quote).loop_advances
  bareValue := DataKind.bare.loop_advances
  text := DataKind.text.loop_advances

/-- From a cursor on the limit cuts off none of the loops. -/
structure CutsNothing (lowered : Text) (limit : Nat) (cursor : Cursor) : Prop where
  content : ∀ parent, contentWithin lowered limit parent cursor =
    full (NodesFrom.collected <$> descendContent lowered parent cursor)
  attributes : ∀ tag, (attributeLoop limit tag).run limit [] cursor =
    full (readAttributes tag cursor)
  quotedValue : ∀ quote, quotedWithin limit quote cursor = full (readQuotedValue quote cursor)
  bareValue : bareWithin limit cursor = full (readBareValue cursor)
  text : DataKind.text.loop.run limit [] cursor =
    full (.ok (((readText cursor).1, ()), (readText cursor).2))

theorem cutsNothing (lowered : Text) {limit : Nat} (enough : cursor.remaining < limit) :
    CutsNothing lowered limit cursor where
  content parent := contentWithin_eq lowered parent enough
  attributes tag := run_attributeLoop tag enough
  quotedValue quote := quotedWithin_eq quote enough
  bareValue := bareWithin_eq enough
  text := DataKind.text.run_loop enough

end Markup

/-- Main result: reading any source, also a malformed one, goes on up to its end or to an error. No
limit above the length of the source is reached, and of a source that is read every element takes
three units at least, and every text and every attribute one. -/
theorem Document.parse_advances (source : Text) :
    (∀ cursor, Markup.NeverBackwards source.lowerCase cursor) ∧
      (∀ limit, Markup.LoopsAdvance source.lowerCase limit) ∧
      (∀ limit cursor, cursor.remaining < limit →
        Markup.CutsNothing source.lowerCase limit cursor) ∧
      (∀ limit, source.length < limit → parseWithin limit source = some (parse source)) ∧
      ∀ document, parse source = .ok document →
        3 * document.elementCount + document.textCount + document.attributeCount ≤
          source.length := by
  refine ⟨Markup.neverBackwards _, Markup.loopsAdvance _, ?_, ?_, ?_⟩
  · exact fun limit cursor enough => Markup.cutsNothing _ enough
  · exact fun limit enough => parseWithin_eq enough
  · intro document success
    rw [← document.leastUnitsAll_eq]
    exact leastUnitsAll_of_parse success

theorem Document.parse_advances_nested :
    Markup.CutsNothing (Text.ofString "<p a>b<br></p>").lowerCase 15
        (Cursor.start (Text.ofString "<p a>b<br></p>")) ∧
      parseWithin 15 (Text.ofString "<p a>b<br></p>") =
        some (.ok ⟨[.element (Text.ofString "p") [⟨Text.ofString "a", []⟩]
          [.text (Text.ofString "b"), .element (Text.ofString "br") [] []]]⟩) ∧
      3 * 2 + 1 + 1 ≤ (Text.ofString "<p a>b<br></p>").length := by
  obtain ⟨_, _, cutsNothing, within, size⟩ := parse_advances (Text.ofString "<p a>b<br></p>")
  have reads : parse (Text.ofString "<p a>b<br></p>") =
      .ok ⟨[.element (Text.ofString "p") [⟨Text.ofString "a", []⟩]
        [.text (Text.ofString "b"), .element (Text.ofString "br") [] []]]⟩ := by
    decide +kernel
  refine ⟨cutsNothing 15 _ (by decide), ?_, size _ reads⟩
  rw [within 15 (by decide), reads]

end HtmlFragments
