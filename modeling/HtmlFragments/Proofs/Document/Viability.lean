import HtmlFragments.Proofs.Document.RoundTrip
import HtmlFragments.Proofs.Document.Shape

/-! # Errors in documents and what could have followed

Where reading stops, the half-read construct can be completed and every open element be closed. Main
result: unless the source holds a dotted capital I, the position of an error lies in the source, and
the text before it is the beginning of a document. -/
set_option autoImplicit false

namespace HtmlFragments

namespace Markup

open Grammar
open CharacterData (Ended)

/-! ## Closing every element -/

def closers (tags : List Text) : Text := tags.flatMap endTagMarkup

theorem ended_closers (tags : List Text) : Ended endsText (closers tags) := by
  cases tags with
  | nil => exact .inl rfl
  | cons tag outer => exact .inr rfl

namespace Progress

def tags (progress : Progress) : List Text := progress.openElements.map OpenElement.tag

@[simp]
theorem tags_add (progress : Progress) (node : Node) :
    (progress.add node).tags = progress.tags := by
  obtain ⟨openElements, finished⟩ := progress
  cases openElements <;> rfl

theorem run_closers (lowered : Text) {tags : List Text} (names : ∀ tag ∈ tags, IsTagName tag)
    (before : Text) (progress : Progress) (same : progress.tags = tags) :
    ∃ nodes, progress.run lowered (.between before (closers tags)) = .ok nodes := by
  induction tags generalizing before progress with
  | nil =>
    obtain ⟨openElements, finished⟩ := progress
    cases openElements with
    | nil => exact ⟨finished.reverse, run_of_end _ rfl⟩
    | cons inner outer => cases same
  | cons tag outer ih =>
    obtain ⟨isName, outerNames⟩ := List.forall_mem_cons.mp names
    obtain ⟨openElements, finished⟩ := progress
    cases openElements with
    | nil => cases same
    | cons inner others =>
      obtain ⟨rfl, sameOuter⟩ := List.cons.inj same
      have closes : (Progress.mk (inner :: others) finished).run lowered
          (.between before (endTagMarkup inner.tag ++ closers outer)) = _ :=
        run_closing lowered before (endTagText_markup isName)
      obtain ⟨nodes, reads⟩ := ih outerNames (before ++ endTagMarkup inner.tag)
        ((Progress.mk others finished).add
          (.element inner.tag inner.attributes inner.children.reverse))
        ((tags_add _ _).trans sameOuter)
      exact ⟨nodes, closes.trans reads⟩

/-! ## Completing what is half read -/

/-- With the word, and something after it, all that is open can be closed. -/
def Completable (last : Text) (goal : Progress) (word : Text) : Prop :=
  ∃ continuation nodes, Ended endsText (word ++ continuation) ∧
    goal.run (last ++ (word ++ continuation)).lowerCase (.between last (word ++ continuation)) =
      .ok nodes

variable {permits : Text → Text → Prop}

theorem Shaped.tagNames {progress : Progress} (shaped : progress.Shaped permits) :
    ∀ tag ∈ progress.tags, IsTagName tag := by
  intro tag member
  obtain ⟨element, isOpen, rfl⟩ := List.mem_map.mp member
  exact (shaped.openElements element isOpen).tag

theorem completable_nil {last : Text} {goal : Progress} (shaped : goal.Shaped permits) :
    Completable last goal [] := by
  obtain ⟨nodes, reads⟩ := run_closers _ shaped.tagNames last goal rfl
  exact ⟨closers goal.tags, nodes, ended_closers _, reads⟩

theorem completable_of_moves {last word : Text} (ending : Text) {goal : Progress} {node : Node}
    (shaped : goal.Shaped permits)
    (moves : Moves (last ++ (word ++ ending ++ closers goal.tags)) last goal (word ++ ending)
      (closers goal.tags) (goal.add node))
    (ended : Ended endsText (word ++ (ending ++ closers goal.tags))) :
    Completable last goal word := by
  have nonempty : word ++ ending ++ closers goal.tags ≠ [] := fun empty =>
    moves.taken_ne_nil (List.append_eq_nil_iff.mp empty).1
  have steps := run_of_step nonempty (step_of_moves moves)
  obtain ⟨nodes, reads⟩ := run_closers (last ++ (word ++ ending ++ closers goal.tags)).lowerCase
    shaped.tagNames (last ++ (word ++ ending)) (goal.add node) (tags_add goal node)
  refine ⟨ending ++ closers goal.tags, nodes, ended, ?_⟩
  rw [← List.append_assoc word, steps]
  exact reads

theorem ended_of_isStartTag {before opening : Text} {startTag : StartTag}
    (isStartTag : IsStartTag before opening startTag) (rest : Text) :
    Ended endsText (opening ++ rest) := by
  refine .inr ?_
  rw [endsText, ofText_isStartTag isStartTag]
  rfl

theorem completable_of_readRawText {last opening text : Text} {goal : Progress}
    {startTag : StartTag} {failure : Failure Expectation} (shaped : goal.Shaped permits)
    (isStartTag : IsStartTag last opening startTag)
    (notClosed : ¬(startTag.tagEnd = .selfClosing ∨ isVoid startTag.tag = true))
    (raw : isRawText startTag.tag = true)
    (undotted : CodeUnit.dottedCapital ∉ last ++ opening ++ text)
    (failed : readRawText (last ++ opening ++ text).lowerCase startTag.tag
      (.between (last ++ opening) text) = .error failure) :
    ∃ word rest, opening ++ text = word ++ rest ∧ failure.position = (last ++ word).length ∧
      Completable last goal word := by
  obtain ⟨value, rest, rfl, position, free⟩ := free_of_readRawText raw undotted failed
  refine ⟨opening ++ value, rest, by simp, by simp [position], ?_⟩
  have undottedBefore : CodeUnit.dottedCapital ∉ last ++ opening :=
    fun member => undotted (List.mem_append_left _ member)
  have undottedValue : CodeUnit.dottedCapital ∉ value := fun member =>
    undotted (List.mem_append_right _ (List.mem_append_left _ member))
  have closes := endTagText_markup isStartTag.tag
  have found := foundAfter_of_undotted (closers goal.tags) raw undottedBefore undottedValue free
    closes
  have split : last ++ opening ++ (value ++ (endTagMarkup startTag.tag ++ closers goal.tags)) =
      last ++ (opening ++ value ++ endTagMarkup startTag.tag ++ closers goal.tags) := by
    simp
  rw [split] at found
  have moves : Moves _ last goal (opening ++ (value ++ endTagMarkup startTag.tag))
      (closers goal.tags) _ := .rawText isStartTag notClosed raw closes found
  have ended := ended_of_isStartTag isStartTag
    (value ++ (endTagMarkup startTag.tag ++ closers goal.tags))
  rw [← List.append_assoc opening] at moves
  exact completable_of_moves _ shaped moves (by simpa using ended)

/-- A start tag that fails to be read can be closed at once, and raw text can be ended. -/
theorem completable_of_readOpening {last text : Text} {unit : CodeUnit} {goal : Progress}
    {failure : Failure Expectation} (shaped : goal.Shaped permits)
    (first : CodeUnit.startsTagName unit = true)
    (undotted : CodeUnit.dottedCapital ∉ last ++ 0x3C :: unit :: text)
    (failed : readOpening (last ++ 0x3C :: unit :: text).lowerCase
      (.between last (0x3C :: unit :: text)) = .error failure) :
    ∃ word rest, 0x3C :: unit :: text = word ++ rest ∧
      failure.position = (last ++ word).length ∧ Completable last goal word := by
  rcases error_of_bind_error failed with started | ⟨⟨startTag, finish⟩, started, opens⟩
  · obtain ⟨taken, rest, ending, startTag, rfl, position, closed, isStartTag⟩ :=
      readStartTag_completion first started
    refine ⟨0x3C :: unit :: taken, rest, rfl, position, ?_⟩
    have ended := ended_of_isStartTag isStartTag (closers goal.tags)
    exact completable_of_moves ending shaped (.empty isStartTag (.inl closed))
      (by simpa using ended)
  · obtain ⟨opening, tail, whole, rfl, isStartTag⟩ := isStartTag_of_readStartTag first started
    rw [whole] at undotted opens ⊢
    simp only [openElement] at opens
    split at opens
    · cases opens
    · rename_i notClosed
      split at opens
      · rename_i raw
        rcases error_of_bind_error opens with wrong | ⟨_, _, done⟩
        · rw [← List.append_assoc] at undotted wrong
          exact completable_of_readRawText shaped isStartTag notClosed raw undotted wrong
        · cases done
      · cases opens

/-- A construct that cannot be read leaves a text that can be completed. -/
theorem completable_of_step {last text : Text} {goal : Progress} {failure : Failure Expectation}
    (shaped : goal.Shaped permits) (undotted : CodeUnit.dottedCapital ∉ last ++ text)
    (failed : goal.step (last ++ text).lowerCase (.between last text) = .error failure) :
    ∃ word rest, text = word ++ rest ∧ failure.position = (last ++ word).length ∧
      Completable last goal word := by
  have here : failure.position = last.length →
      ∃ word rest, text = word ++ rest ∧ failure.position = (last ++ word).length ∧
        Completable last goal word := fun position =>
    ⟨[], text, rfl, by simp [position], completable_nil shaped⟩
  unfold step at failed
  split at failed
  · apply here
    obtain ⟨openElements, finished⟩ := goal
    cases openElements with
    | nil =>
      cases failed
      rfl
    | cons inner outer =>
      rcases error_of_bind_error failed with wrong | ⟨_, _, done⟩
      · exact readEndTag_failure wrong
      · cases done
  · rcases error_of_bind_error failed with wrong | ⟨_, _, done⟩
    · exact here (skipComment_failure wrong)
    · cases done
  · rcases error_of_bind_error failed with wrong | ⟨_, _, done⟩
    · exact here (skipDeclaration_failure wrong)
    · cases done
  · rename_i isStartTag
    rcases error_of_bind_error failed with wrong | ⟨_, _, done⟩
    · obtain ⟨unit, more, begins, first⟩ := ofText_startTag_begins isStartTag
      have shape : text = 0x3C :: unit :: more := begins
      subst shape
      exact completable_of_readOpening shaped first undotted wrong
    · cases done
  · cases failed

end Progress
end Markup

namespace Document

open Markup

/-- The place where reading a source stops, and what was read up to there. It is also reached
before any other text that ends character data. -/
structure StopsAt (source front : Text) (goal : Progress) (tail : Text) : Prop where
  whole : source = front ++ tail
  reads : readNodes source = goal.run source.lowerCase (.between front tail)
  stuck : tail ≠ [] → ∃ failure, goal.step source.lowerCase (.between front tail) = .error failure
  shaped : goal.Shaped fun _ _ => True
  others : ∀ other, CharacterData.Ended endsText other →
    readNodes (front ++ other) = goal.run (front ++ other).lowerCase (.between front other)

theorem exists_stopsAt {source : Text} (undotted : CodeUnit.dottedCapital ∉ source) :
    ∃ front goal tail, StopsAt source front goal tail := by
  obtain ⟨mark, text, whole, starts, restarts⟩ := exists_contentStart source
  obtain ⟨front, goal, tail, reaches, stuck⟩ := Progress.exists_reaches source mark text .start
  obtain ⟨taken, rfl, rfl⟩ := reaches.split
  refine ⟨mark ++ taken, goal, tail, by simp [whole], ?_, stuck, ?_, ?_⟩
  · rw [readNodes, starts, reaches.run]
  · exact reaches.shaped whole (fun _ _ _ _ _ _ _ => trivial) Progress.shaped_start
  · intro other ended
    obtain ⟨again, same, -, onward, -⟩ := reaches.before whole undotted ended
    obtain rfl := List.append_cancel_right same
    have restart := restarts taken tail other rfl ended
    rw [← List.append_assoc] at restart
    rw [readNodes, restart, onward.run]

/-- The beginning of a text that is read as a document. -/
def Viable (text : Text) : Prop :=
  ∃ continuation document, parse (text ++ continuation) = .ok document

theorem viable_of_completable {source front tail word : Text} {goal : Progress}
    (stops : StopsAt source front goal tail) (completable : goal.Completable front word) :
    Viable (front ++ word) := by
  obtain ⟨continuation, nodes, ended, reads⟩ := completable
  refine ⟨continuation, ⟨nodes⟩, ?_⟩
  rw [List.append_assoc, parse_eq_ok, readNodes, ← reads]
  exact stops.others _ ended

/-- The place of a failure is a place in the source, and the text before it is viable. -/
theorem viable_of_readNodes {source : Text} {failure : Failure Expectation}
    (undotted : CodeUnit.dottedCapital ∉ source) (failed : readNodes source = .error failure) :
    ∃ front back, source = front ++ back ∧ failure.position = front.length ∧ Viable front := by
  obtain ⟨front, goal, tail, stops⟩ := exists_stopsAt undotted
  rw [stops.reads] at failed
  by_cases finished : tail = []
  · subst finished
    have position : failure.position = front.length := by
      rw [goal.run_of_end rfl] at failed
      obtain ⟨openElements, nodes⟩ := goal
      cases openElements <;> cases failed
      rfl
    have viable := viable_of_completable stops (Progress.completable_nil stops.shaped)
    rw [List.append_nil] at viable
    exact ⟨front, [], stops.whole, position, viable⟩
  · obtain ⟨wrong, stuck⟩ := stops.stuck finished
    rw [Progress.run_of_failure finished stuck] at failed
    cases failed
    rw [stops.whole] at undotted stuck
    obtain ⟨word, rest, rfl, position, completable⟩ :=
      Progress.completable_of_step stops.shaped undotted stuck
    exact ⟨front ++ word, rest, by simp [stops.whole], position,
      viable_of_completable stops completable⟩

theorem parse_eq_error {source : Text} {error : ParseError} (failed : parse source = .error error) :
    ∃ failure, readNodes source = .error failure ∧
      error = ParseError.ofPosition source failure.position failure.expectation.text := by
  rcases error_of_bind_error failed with located | ⟨_, _, made⟩
  · exact ParseError.locate_eq_error.mp located
  · cases made

/-- Main result: what an error says about its place. -/
theorem error_viable {source : Text} {error : ParseError}
    (undotted : CodeUnit.dottedCapital ∉ source) (failed : parse source = .error error) :
    error.position ≤ source.length ∧ error.found = (source.drop error.position).take 20 ∧
      Viable (source.take error.position) := by
  obtain ⟨failure, reads, rfl⟩ := parse_eq_error failed
  obtain ⟨front, back, rfl, position, viable⟩ := viable_of_readNodes undotted reads
  refine ⟨?_, rfl, ?_⟩
  · show failure.position ≤ _
    rw [position]
    simp
  · show Viable (List.take failure.position _)
    rw [position, List.take_left]
    exact viable

theorem error_viable_value :
    parse (Text.ofString "<p><b a=>x") =
        .error (ParseError.ofPosition (Text.ofString "<p><b a=>x") 8
          (Text.ofString "an attribute value")) ∧
      8 ≤ (Text.ofString "<p><b a=>x").length ∧ Viable (Text.ofString "<p><b a=") := by
  have failed : parse (Text.ofString "<p><b a=>x") =
      .error (ParseError.ofPosition (Text.ofString "<p><b a=>x") 8
        (Text.ofString "an attribute value")) := by
    decide +kernel
  have undotted : CodeUnit.dottedCapital ∉ Text.ofString "<p><b a=>x" := by decide
  obtain ⟨inside, _, viable⟩ := error_viable undotted failed
  exact ⟨failed, inside, viable⟩

end Document
end HtmlFragments
