import HtmlFragments.Proofs.Markup.ConstructReading
import HtmlFragments.Proofs.Markup.Descent
import HtmlFragments.Proofs.Markup.TagLookahead

/-! # What reading takes, step by step

One step takes a construct from the text at hand and makes a progress. A run makes steps up to the
end of the source or to a construct that cannot be read. The same steps can be made before any other
text at which character data ends. -/
set_option autoImplicit false

namespace HtmlFragments.Markup

open Grammar
open CharacterData (Ended)

namespace Progress

/-- What one step can do: the text that it takes before the rest, and the progress that it makes. -/
inductive Moves (source before : Text) : Progress → Text → Text → Progress → Prop where
  | closing {inner : OpenElement} {outer : List OpenElement} {finished : List Node}
      {closing rest : Text} :
      EndTagText inner.tag closing →
      Moves source before ⟨inner :: outer, finished⟩ closing rest
        ((Progress.mk outer finished).add
          (.element inner.tag inner.attributes inner.children.reverse))
  | aside {progress : Progress} {written rest : Text} :
      Aside written → Moves source before progress written rest progress
  | text {progress : Progress} {unit : CodeUnit} {word value rest : Text} :
      endsText (unit :: (word ++ rest)) = false → Ended endsText rest →
      (∀ other, Ended endsText other →
        CharacterData.read endsText (unit :: word ++ other) = (value, word.length + 1)) →
      Moves source before progress (unit :: word) rest (progress.add (.text value))
  | empty {progress : Progress} {startTag : StartTag} {opening rest : Text} :
      IsStartTag before opening startTag →
      startTag.tagEnd = .selfClosing ∨ isVoid startTag.tag = true →
      Moves source before progress opening rest
        (progress.add (.element startTag.tag startTag.attributes []))
  | rawText {progress : Progress} {startTag : StartTag} {opening value closing rest : Text} :
      IsStartTag before opening startTag →
      ¬(startTag.tagEnd = .selfClosing ∨ isVoid startTag.tag = true) →
      isRawText startTag.tag = true → EndTagText startTag.tag closing →
      FoundAfter source (before ++ opening) startTag.tag value →
      Moves source before progress (opening ++ (value ++ closing)) rest
        (progress.add (.element startTag.tag startTag.attributes (textNodes value)))
  | content {progress : Progress} {startTag : StartTag} {opening rest : Text} :
      IsStartTag before opening startTag →
      ¬(startTag.tagEnd = .selfClosing ∨ isVoid startTag.tag = true) →
      isRawText startTag.tag = false →
      Moves source before progress opening rest
        (progress.enter (.content startTag.tag startTag.attributes))

/-! ## A step is a move -/

theorem moves_of_leave {source before text : Text} {progress next : Progress} {after : Cursor}
    (success : progress.leave (.between before text) = .ok (next, after)) :
    ∃ taken rest, text = taken ++ rest ∧ after = .between (before ++ taken) rest ∧
      Moves source before progress taken rest next := by
  obtain ⟨openElements, finished⟩ := progress
  cases openElements with
  | nil => cases success
  | cons inner outer =>
    obtain ⟨finish, closed, whole⟩ := ok_of_bind_ok success
    cases whole
    obtain ⟨closing, rest, rfl, closes, rfl⟩ := endTagText_of_readEndTag closed
    exact ⟨closing, rest, rfl, rfl, .closing closes⟩

theorem moves_of_readOpening {source before text : Text} {unit : CodeUnit} {opening : Opening}
    {after : Cursor} (first : CodeUnit.startsTagName unit = true) (progress : Progress)
    (success : readOpening source.lowerCase (.between before (0x3C :: unit :: text)) =
      .ok (opening, after)) :
    ∃ taken rest, 0x3C :: unit :: text = taken ++ rest ∧
      after = .between (before ++ taken) rest ∧
      Moves source before progress taken rest (progress.enter opening) := by
  obtain ⟨⟨startTag, finish⟩, started, opens⟩ := ok_of_bind_ok success
  obtain ⟨tagText, tail, whole, rfl, isStartTag⟩ := isStartTag_of_readStartTag first started
  rw [whole]
  simp only [openElement] at opens
  split at opens
  · rename_i closed
    cases opens
    exact ⟨tagText, tail, rfl, rfl, .empty isStartTag closed⟩
  · rename_i notClosed
    split at opens
    · rename_i raw
      obtain ⟨⟨value, finish⟩, rawRead, shape⟩ := ok_of_bind_ok opens
      cases shape
      obtain ⟨closing, rest, rfl, closes, found, rfl⟩ := rawText_of_readRawText rawRead
      exact ⟨tagText ++ (value ++ closing), rest, by simp, by simp,
        .rawText isStartTag notClosed raw closes found⟩
    · rename_i notRaw
      cases opens
      exact ⟨tagText, tail, rfl, rfl, .content isStartTag notClosed (by simpa using notRaw)⟩

theorem ofText_startTag_begins {text : Text} (isStartTag : Construct.ofText text = .startTag) :
    ∃ unit more, text = 0x3C :: unit :: more ∧ CodeUnit.startsTagName unit = true := by
  unfold Construct.ofText at isStartTag
  split at isStartTag
  · cases isStartTag
  · cases isStartTag
  · cases isStartTag
  · rename_i unit more _ _ _
    split at isStartTag
    · rename_i first
      exact ⟨unit, more, rfl, first⟩
    · cases isStartTag
  · cases isStartTag

theorem ofText_comment_begins {text : Text} (isComment : Construct.ofText text = .comment) :
    ∃ more, text = 0x3C :: 0x21 :: 0x2D :: 0x2D :: more := by
  unfold Construct.ofText at isComment
  split at isComment
  · cases isComment
  · rename_i more
    exact ⟨more, rfl⟩
  · cases isComment
  · split at isComment <;> cases isComment
  · cases isComment

theorem ofText_declaration_begins {text : Text}
    (isDeclaration : Construct.ofText text = .declaration) :
    ∃ more, text = 0x3C :: 0x21 :: more ∧ ¬[0x2D, 0x2D] <+: more := by
  unfold Construct.ofText at isDeclaration
  split at isDeclaration
  · cases isDeclaration
  · cases isDeclaration
  · rename_i more noComment
    refine ⟨more, rfl, ?_⟩
    rintro ⟨inner, rfl⟩
    exact noComment inner rfl
  · split at isDeclaration <;> cases isDeclaration
  · cases isDeclaration

theorem moves_of_readText {source before text : Text} (progress : Progress) (nonempty : text ≠ [])
    (isText : Construct.ofText text = .text) :
    ∃ taken rest, text = taken ++ rest ∧
      (readText (.between before text)).2 = .between (before ++ taken) rest ∧
      Moves source before progress taken rest
        (progress.add (.text (readText (.between before text)).1)) := by
  obtain ⟨unit, more, rfl⟩ := List.exists_cons_of_ne_nil nonempty
  have going : endsText (unit :: more) = false := by simp [endsText, isText]
  obtain ⟨taken, rest, whole, count, ended, reads⟩ :=
    CharacterData.read_lookahead CharacterData.foresees_endsText (unit :: more)
  have moves := CharacterData.read_count_pos endsText unit more going
  cases taken with
  | nil => rw [count] at moves; cases moves
  | cons first word =>
    have begins : first = unit := (List.cons.inj whole).1.symm
    subst begins
    refine ⟨first :: word, rest, whole, ?_, .text ?_ ended ?_⟩
    · simp only [readText, Cursor.between_rest, count]
      rw [whole]
      exact Cursor.advance_between before _ rest _ rfl
    · rw [whole] at going
      exact going
    · intro other otherEnded
      rw [reads other otherEnded (CharacterData.continues_endsText otherEnded)]
      exact Prod.ext rfl count

theorem moves_of_step {source before text : Text} {progress next : Progress} {after : Cursor}
    (nonempty : text ≠ [])
    (success : progress.step source.lowerCase (.between before text) = .ok (next, after)) :
    ∃ taken rest, text = taken ++ rest ∧ after = .between (before ++ taken) rest ∧
      Moves source before progress taken rest next := by
  unfold step at success
  split at success
  · exact moves_of_leave success
  · rename_i isComment
    obtain ⟨finish, skipped, whole⟩ := ok_of_bind_ok success
    cases whole
    obtain ⟨more, begins⟩ := ofText_comment_begins isComment
    have shape : text = 0x3C :: 0x21 :: 0x2D :: 0x2D :: more := begins
    subst shape
    obtain ⟨written, rest, split, aside, rfl⟩ := aside_of_skipComment skipped
    exact ⟨written, rest, split, rfl, .aside aside⟩
  · rename_i isDeclaration
    obtain ⟨finish, skipped, whole⟩ := ok_of_bind_ok success
    cases whole
    obtain ⟨more, begins, noComment⟩ := ofText_declaration_begins isDeclaration
    have shape : text = 0x3C :: 0x21 :: more := begins
    subst shape
    obtain ⟨written, rest, split, aside, rfl⟩ := aside_of_skipDeclaration noComment skipped
    exact ⟨written, rest, split, rfl, .aside aside⟩
  · rename_i isStartTag
    obtain ⟨⟨opening, finish⟩, opened, whole⟩ := ok_of_bind_ok success
    cases whole
    obtain ⟨unit, more, begins, first⟩ := ofText_startTag_begins isStartTag
    have shape : text = 0x3C :: unit :: more := begins
    subst shape
    exact moves_of_readOpening first progress opened
  · rename_i isText
    cases success
    exact moves_of_readText progress nonempty isText

/-! ## A move is a step -/

theorem ofText_isStartTag {before opening : Text} {startTag : StartTag}
    (isStartTag : IsStartTag before opening startTag) (rest : Text) :
    Construct.ofText (opening ++ rest) = .startTag := by
  obtain ⟨unit, more, rfl, first⟩ := isStartTag.begins
  exact ofText_startTag first _

theorem step_of_isStartTag {lowered before tagText rest : Text} {startTag : StartTag}
    (opening : Opening) {after : Cursor} (progress : Progress)
    (isStartTag : IsStartTag before tagText startTag)
    (opens : openElement lowered startTag (.between (before ++ tagText) rest) =
      .ok (opening, after)) :
    progress.step lowered (.between before (tagText ++ rest)) =
      .ok (progress.enter opening, after) :=
  step_of_readStartTag progress (ofText_isStartTag isStartTag rest) (isStartTag.reads rest trivial)
    opens

theorem step_of_moves {source before taken rest : Text} {progress next : Progress}
    (moves : Moves source before progress taken rest next) :
    progress.step source.lowerCase (.between before (taken ++ rest)) =
      .ok (next, .between (before ++ taken) rest) := by
  cases moves with
  | closing closes => exact step_endTag _ before closes
  | aside aside => exact step_aside _ before rest progress aside
  | text going ended reads => exact step_of_read _ before progress going (reads rest ended)
  | empty isStartTag closed =>
    exact step_of_isStartTag (.complete _) progress isStartTag (if_pos closed)
  | @rawText _ startTag opening value closing _ isStartTag notClosed raw closes found =>
    rw [List.append_assoc, List.append_assoc]
    refine step_of_isStartTag (.complete (.element startTag.tag startTag.attributes
      (textNodes value))) progress isStartTag ?_
    simp only [openElement, if_neg notClosed, raw, if_true]
    rw [bind_eq_of_ok (readRawText_between found closes)]
    simp only [List.append_assoc]
    rfl
  | @content _ startTag _ _ isStartTag notClosed notRaw =>
    apply step_of_isStartTag (.content startTag.tag startTag.attributes) progress isStartTag
    simp only [openElement, if_neg notClosed, notRaw, Bool.false_eq_true, if_false]

/-! ## What follows a move -/

theorem Moves.begins {source before taken rest : Text} {progress next : Progress}
    (moves : Moves source before progress taken rest next) :
    (∃ unit word, taken = unit :: word ∧ endsText (unit :: (word ++ rest)) = false) ∨
      ∃ unit word, taken = 0x3C :: unit :: word := by
  cases moves with
  | closing closes =>
    cases closes
    exact .inr ⟨_, _, rfl⟩
  | aside aside => cases aside <;> exact .inr ⟨_, _, rfl⟩
  | text going _ _ => exact .inl ⟨_, _, rfl, going⟩
  | empty isStartTag _ =>
    obtain ⟨unit, more, rfl, _⟩ := isStartTag.begins
    exact .inr ⟨_, _, rfl⟩
  | rawText isStartTag _ _ _ _ =>
    obtain ⟨unit, more, rfl, _⟩ := isStartTag.begins
    exact .inr ⟨_, _, rfl⟩
  | content isStartTag _ _ =>
    obtain ⟨unit, more, rfl, _⟩ := isStartTag.begins
    exact .inr ⟨_, _, rfl⟩

theorem Moves.taken_ne_nil {source before taken rest : Text} {progress next : Progress}
    (moves : Moves source before progress taken rest next) : taken ≠ [] := by
  rcases moves.begins with ⟨unit, word, rfl, _⟩ | ⟨unit, word, rfl⟩ <;> exact List.cons_ne_nil _ _

/-- A construct ends character data whatever comes after it. -/
theorem Moves.ended {source before taken rest : Text} {progress next : Progress}
    (moves : Moves source before progress taken rest next)
    (ended : Ended endsText (taken ++ rest)) (other : Text) : Ended endsText (taken ++ other) := by
  rcases moves.begins with ⟨unit, word, rfl, going⟩ | ⟨unit, word, rfl⟩
  · rcases ended with nothing | ends
    · cases nothing
    · rw [List.cons_append, going] at ends
      cases ends
  · rcases ended with nothing | ends
    · cases nothing
    · refine .inr ?_
      rw [List.cons_append, List.cons_append, CharacterData.endsText_opening] at ends ⊢
      exact ends

/-- Up to the first dotted capital I a move can be made before any other rest that ends data where
the one rest does. -/
theorem Moves.before {before taken rest other : Text} {progress next : Progress}
    (moves : Moves (before ++ (taken ++ rest)) before progress taken rest next)
    (undotted : CodeUnit.dottedCapital ∉ before ++ taken)
    (same : Ended endsText rest → Ended endsText other) :
    Moves (before ++ (taken ++ other)) before progress taken other next := by
  cases moves with
  | closing closes => exact .closing closes
  | aside aside => exact .aside aside
  | text going ended reads =>
    have continues : CharacterData.Continues endsText rest other :=
      CharacterData.continues_endsText (same ended)
    have otherGoing := CharacterData.foresees_endsText.continues_append continues going
    exact .text otherGoing (same ended) reads
  | empty isStartTag closed => exact .empty isStartTag closed
  | @rawText _ startTag opening value closing _ isStartTag notClosed raw closes found =>
    have undottedBefore : CodeUnit.dottedCapital ∉ before ++ opening := by
      simp only [List.mem_append, not_or] at undotted ⊢
      exact ⟨undotted.1, undotted.2.1⟩
    have undottedValue : CodeUnit.dottedCapital ∉ value := by
      simp only [List.mem_append, not_or] at undotted
      exact undotted.2.2.1
    have split : ∀ last, before ++ (opening ++ (value ++ closing) ++ last) =
        before ++ opening ++ (value ++ (closing ++ last)) := by simp
    rw [split] at found ⊢
    have free := free_of_foundAfter raw undottedBefore undottedValue found
    exact .rawText isStartTag notClosed raw closes
      (foundAfter_of_undotted other raw undottedBefore undottedValue free closes)
  | content isStartTag notClosed notRaw => exact .content isStartTag notClosed notRaw

/-! ## Runs -/

inductive Reaches (source : Text) : Text → Progress → Text → Text → Progress → Text → Prop where
  | here {before rest : Text} {progress : Progress} :
      Reaches source before progress rest before progress rest
  | further {before taken rest last tail : Text} {progress next goal : Progress} :
      Moves source before progress taken rest next →
      Reaches source (before ++ taken) next rest last goal tail →
      Reaches source before progress (taken ++ rest) last goal tail

theorem Reaches.run {source before text last tail : Text} {progress goal : Progress}
    (reaches : Reaches source before progress text last goal tail) :
    progress.run source.lowerCase (.between before text) =
      goal.run source.lowerCase (.between last tail) := by
  induction reaches with
  | here => rfl
  | @further _ taken rest _ _ _ _ _ moves _ ih =>
    have nonempty : taken ++ rest ≠ [] := by simp [moves.taken_ne_nil]
    rw [run_of_step nonempty (step_of_moves moves), ih]

theorem Reaches.split {source before text last tail : Text} {progress goal : Progress}
    (reaches : Reaches source before progress text last goal tail) :
    ∃ taken, text = taken ++ tail ∧ last = before ++ taken := by
  induction reaches with
  | here => exact ⟨[], rfl, by simp⟩
  | @further before taken _ _ _ _ _ _ _ _ ih =>
    obtain ⟨more, rfl, rfl⟩ := ih
    exact ⟨taken ++ more, by simp, by simp⟩

/-- Without a dotted capital I the same place is reached before any text that ends data. -/
theorem Reaches.before {source before text last tail other : Text} {progress goal : Progress}
    (reaches : Reaches source before progress text last goal tail)
    (whole : source = before ++ text) (undotted : CodeUnit.dottedCapital ∉ source)
    (ended : Ended endsText other) :
    ∃ taken, text = taken ++ tail ∧ last = before ++ taken ∧
      Reaches (last ++ other) before progress (taken ++ other) last goal other ∧
      (Ended endsText text → Ended endsText (taken ++ other)) := by
  induction reaches with
  | here => exact ⟨[], rfl, by simp, .here, fun _ => ended⟩
  | @further before taken rest last tail _ _ _ moves _ ih =>
    obtain ⟨more, rfl, rfl, onward, endedMore⟩ := ih (by simp [whole])
    subst whole
    have undottedTaken : CodeUnit.dottedCapital ∉ before ++ taken := by
      simp only [List.mem_append, not_or] at undotted ⊢
      exact ⟨undotted.1, undotted.2.1⟩
    have moved := moves.before undottedTaken endedMore
    refine ⟨taken ++ more, by simp, by simp, ?_, fun endedText => ?_⟩
    · rw [List.append_assoc taken more other]
      refine .further ?_ onward
      simpa using moved
    · rw [List.append_assoc]
      exact moves.ended endedText _

/-- A run goes to the end of the source or to a construct that cannot be read. -/
theorem exists_reaches (source before text : Text) (progress : Progress) :
    ∃ last goal tail, Reaches source before progress text last goal tail ∧
      (tail ≠ [] →
        ∃ failure, goal.step source.lowerCase (.between last tail) = .error failure) := by
  induction size : text.length using Nat.strongRecOn generalizing before text progress with
  | ind length ih =>
    by_cases nonempty : text = []
    · exact ⟨before, progress, text, .here, fun filled => absurd nonempty filled⟩
    · cases steps : progress.step source.lowerCase (.between before text) with
      | error failure => exact ⟨before, progress, text, .here, fun _ => ⟨failure, steps⟩⟩
      | ok found =>
        obtain ⟨next, after⟩ := found
        obtain ⟨taken, rest, rfl, rfl, moves⟩ := moves_of_step nonempty steps
        have shorter : rest.length < length := by
          have filled := List.length_pos_iff.mpr moves.taken_ne_nil
          rw [List.length_append] at size
          omega
        obtain ⟨last, goal, tail, reaches, stuck⟩ :=
          ih rest.length shorter (before ++ taken) rest next rfl
        exact ⟨last, goal, tail, .further moves reaches, stuck⟩

theorem run_of_failure {lowered last tail : Text} {goal : Progress} {failure : Failure Expectation}
    (nonempty : tail ≠ []) (failed : goal.step lowered (.between last tail) = .error failure) :
    goal.run lowered (.between last tail) = .error failure := by
  have filled : (Cursor.between last tail).rest ≠ [] := nonempty
  rw [goal.run_of_nonempty filled, failed]
  rfl

/-- A run that succeeds closes every element and takes all of the text. -/
theorem reaches_of_run {source before text : Text} {progress : Progress} {nodes : List Node}
    (success : progress.run source.lowerCase (.between before text) = .ok nodes) :
    ∃ finished, nodes = finished.reverse ∧
      Reaches source before progress text (before ++ text) ⟨[], finished⟩ [] := by
  obtain ⟨last, goal, tail, reaches, stuck⟩ := exists_reaches source before text progress
  obtain ⟨taken, rfl, rfl⟩ := reaches.split
  rw [reaches.run] at success
  cases tail with
  | nil =>
    rw [goal.run_of_end rfl] at success
    obtain ⟨openElements, finished⟩ := goal
    cases openElements with
    | nil =>
      cases success
      exact ⟨finished, rfl, by simpa using reaches⟩
    | cons inner outer => cases success
  | cons unit more =>
    obtain ⟨failure, failed⟩ := stuck (List.cons_ne_nil _ _)
    rw [run_of_failure (List.cons_ne_nil _ _) failed] at success
    cases success

end Progress

/-! ## Documents -/

theorem head?_ne_of_ended {mark : CodeUnit} {text : Text} (ended : Ended endsText text)
    (notOpening : mark ≠ 0x3C) : text.head? ≠ some mark := by
  rcases ended with rfl | ends
  · exact nofun
  · obtain ⟨unit, more, rfl⟩ := CharacterData.endsText_begins ends
    intro same
    exact notOpening (Option.some.inj same).symm

theorem exists_contentStart (source : Text) :
    ∃ mark text, source = mark ++ text ∧ Document.contentStart source = .between mark text ∧
      ∀ taken rest other, text = taken ++ rest → Ended endsText other →
        Document.contentStart (mark ++ (taken ++ other)) = .between mark (taken ++ other) := by
  by_cases marked : source.head? = some 0xFEFF
  · obtain ⟨text, rfl⟩ := List.head?_eq_some_iff.mp marked
    exact ⟨[0xFEFF], text, rfl, rfl, fun _ _ _ _ _ => rfl⟩
  · refine ⟨[], source, rfl, contentStart_unmarked marked, ?_⟩
    intro taken rest other whole ended
    apply contentStart_unmarked
    cases taken with
    | nil => exact head?_ne_of_ended ended (by decide)
    | cons unit more =>
      rw [whole] at marked
      exact marked

end HtmlFragments.Markup
