import HtmlFragments.Proofs.Document.Viability
import HtmlFragments.Proofs.Markup.Shifting

/-! # Documents one behind the other

A document without a dotted capital I is read alike before a tag, a comment or a declaration, and
what comes there is read as if it stood alone. Main result: the nodes of the two sources stand one
after the other, and an error of the second source is reported as far behind the first one as it
stands in the second. -/
set_option autoImplicit false

namespace HtmlFragments

namespace Markup.Progress

theorem run_finished (lowered : Text) (finished : List Node) (cursor : Cursor) :
    (Progress.mk [] finished).run lowered cursor =
      (finished.reverse ++ ·) <$> start.run lowered cursor := by
  have top : ∀ nodes, (Progress.mk [] nodes).parent? = none := fun _ => rfl
  rw [follows lowered cursor ⟨[], finished⟩, start, follows lowered cursor ⟨[], []⟩, top, top]
  cases descendContent lowered none cursor with
  | error failure => rfl
  | ok found =>
    rw [bind_eq_of_ok rfl, bind_eq_of_ok rfl, addAll_top, addAll_top, resume, resume]
    simp only [List.append_nil, List.reverse_append, List.reverse_reverse]
    rfl

end Markup.Progress

namespace Document

open Markup

theorem exists_finished {source : Text} {nodes : List Node}
    (undotted : CodeUnit.dottedCapital ∉ source) (success : readNodes source = .ok nodes) :
    ∃ finished, nodes = finished.reverse ∧ ∀ other, CharacterData.Ended endsText other →
      readNodes (source ++ other) =
        (Progress.mk [] finished).run (source ++ other).lowerCase (.between source other) := by
  obtain ⟨front, goal, tail, stops⟩ := exists_stopsAt undotted
  rw [stops.reads] at success
  have finished : tail = [] := by
    rcases List.eq_nil_or_concat tail with rfl | ⟨_, _, rfl⟩
    · rfl
    · obtain ⟨failure, failed⟩ := stops.stuck (by simp)
      rw [Progress.run_of_failure (by simp) failed] at success
      cases success
  subst finished
  have whole := stops.whole
  rw [List.append_nil] at whole
  subst whole
  rw [goal.run_of_end rfl] at success
  obtain ⟨openElements, nodes⟩ := goal
  cases openElements with
  | nil =>
    cases success
    exact ⟨nodes, rfl, stops.others⟩
  | cons inner outer => cases success

/-- A source behind one that was read is read as if it stood alone. -/
theorem readNodes_append {first more : Text} {nodes : List Node}
    (undotted : CodeUnit.dottedCapital ∉ first) (success : readNodes first = .ok nodes)
    (ends : endsText (0x3C :: more) = true) :
    readNodes (first ++ 0x3C :: more) =
      (nodes ++ ·) <$> (readNodes (0x3C :: more)).shift first.length id := by
  obtain ⟨finished, rfl, others⟩ := exists_finished undotted success
  have length : first.lowerCase.length = first.length :=
    Text.lowered_length undotted (Text.lowered_lowerCase first)
  have place : Cursor.between first (0x3C :: more) =
      (Cursor.between [] (0x3C :: more)).shift first.lowerCase.length := by
    rw [length, ← Cursor.between_append, List.append_nil]
  have alone : contentStart (0x3C :: more) = .between [] (0x3C :: more) :=
    contentStart_unmarked (by simp)
  rw [others _ (.inr ends), Progress.run_finished, Text.lowerCase_append, place,
    Progress.run_shift, readNodes, alone, length]

/-- Main result: a document and, behind it, a source that begins like markup. -/
theorem parse_append {first more : Text} {unit : CodeUnit} {document : Document}
    (undotted : CodeUnit.dottedCapital ∉ first) (success : parse first = .ok document)
    (markup : CodeUnit.startsTagName unit = true ∨ unit = 0x21) :
    (∀ other, parse (0x3C :: unit :: more) = .ok other →
      parse (first ++ 0x3C :: unit :: more) = .ok ⟨document.children ++ other.children⟩) ∧
    ∀ error, parse (0x3C :: unit :: more) = .error error →
      parse (first ++ 0x3C :: unit :: more) =
        .error (ParseError.ofPosition (first ++ 0x3C :: unit :: more)
          (first.length + error.position) error.expected) := by
  have ends : endsText (0x3C :: unit :: more) = true := by
    rw [CharacterData.endsText_opening]
    rcases markup with letter | rfl
    · simp [letter]
    · rfl
  have whole := readNodes_append undotted (parse_eq_ok.mp success) ends
  constructor
  · intro other reads
    rw [parse_eq_ok.mp reads] at whole
    rw [parse, whole]
    rfl
  · intro error fails
    obtain ⟨failure, reads, rfl⟩ := parse_eq_error fails
    rw [reads] at whole
    rw [parse, whole]
    rfl

theorem parse_append_reference :
    parse (Text.ofString "<p>a</p>&lt") = .ok ⟨[.element (Text.ofString "p") []
        [.text (Text.ofString "a")], .text (Text.ofString "&lt")]⟩ ∧
      parse (Text.ofString "<p>a</p>&lt" ++ Text.ofString "<br>") =
        .ok ⟨[.element (Text.ofString "p") [] [.text (Text.ofString "a")],
          .text (Text.ofString "&lt"), .element (Text.ofString "br") [] []]⟩ ∧
      parse (Text.ofString "<p>a</p>&lt" ++ Text.ofString "<!--") =
        .error (ParseError.ofPosition (Text.ofString "<p>a</p>&lt<!--") 11
          (Text.ofString "\"-->\" to close the comment")) := by
  have first : parse (Text.ofString "<p>a</p>&lt") = .ok ⟨[.element (Text.ofString "p") []
      [.text (Text.ofString "a")], .text (Text.ofString "&lt")]⟩ := by
    decide +kernel
  have second : parse (Text.ofString "<br>") = .ok ⟨[.element (Text.ofString "br") [] []]⟩ := by
    decide +kernel
  have rejected : parse (Text.ofString "<!--") = .error (ParseError.ofPosition
      (Text.ofString "<!--") 0 (Text.ofString "\"-->\" to close the comment")) := by
    decide +kernel
  have undotted : CodeUnit.dottedCapital ∉ Text.ofString "<p>a</p>&lt" := by decide
  exact ⟨first, (parse_append undotted first (.inl (by decide))).1 _ second,
    (parse_append undotted first (.inr rfl)).2 _ rejected⟩

end Document
end HtmlFragments
