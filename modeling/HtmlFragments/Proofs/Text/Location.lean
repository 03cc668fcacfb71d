import HtmlFragments.Text.Cursor
import Mathlib.Data.List.DropRight

/-! # The place that an error shows

A line number counts the line feeds before a position, and a column number the units since the last
one of them. Main result: an error shows these two numbers for every position in a text, the place of
the end for every position past it, and two places for two positions, in the order of the
positions. -/
set_option autoImplicit false

namespace HtmlFragments

namespace Location

def lastLine (text : Text) : Text := text.rtakeWhile (· != 0x0A)

/-- A place on an earlier line, or on the same line in an earlier column. -/
def Before (first second : Location) : Prop :=
  first.line < second.line ∨ first.line = second.line ∧ first.column < second.column

theorem Before.trans {first second third : Location} (left : first.Before second)
    (right : second.Before third) : first.Before third := by
  unfold Before at *
  omega

theorem Before.ne {first second : Location} (before : first.Before second) : first ≠ second := by
  rintro rfl
  unfold Before at before
  omega

theorem before_next (location : Location) (unit : CodeUnit) :
    location.Before (location.next unit) := by
  unfold next
  split
  · exact .inl (Nat.lt_succ_self _)
  · exact .inr ⟨rfl, Nat.lt_succ_self _⟩

/-! ## Counting -/

theorem next_lineFeed (location : Location) : location.next 0x0A = ⟨location.line + 1, 1⟩ := rfl

theorem next_of_ne {unit : CodeUnit} (location : Location) (noLineFeed : unit ≠ 0x0A) :
    location.next unit = ⟨location.line, location.column + 1⟩ := by
  simp [next, noLineFeed]

theorem lastLine_lineFeed (text : Text) : lastLine (text ++ [0x0A]) = [] :=
  List.rtakeWhile_concat_neg _ _ _ (by simp)

theorem lastLine_of_ne {unit : CodeUnit} (text : Text) (noLineFeed : unit ≠ 0x0A) :
    lastLine (text ++ [unit]) = lastLine text ++ [unit] :=
  List.rtakeWhile_concat_pos _ _ _ (by simpa using noLineFeed)

/-- The place after a text, by what the text holds. -/
theorem foldl_next (text : Text) :
    text.foldl next start = ⟨1 + text.count 0x0A, 1 + (lastLine text).length⟩ := by
  induction text using List.reverseRecOn with
  | nil => rfl
  | append_singleton text unit ih =>
    rw [List.foldl_append, List.foldl_cons, List.foldl_nil, ih, List.count_append]
    by_cases lineFeed : unit = 0x0A
    · subst lineFeed
      rw [next_lineFeed, lastLine_lineFeed, List.count_singleton_self]
      rfl
    · rw [next_of_ne _ lineFeed, lastLine_of_ne _ lineFeed, List.count_singleton,
        List.length_append]
      simp [lineFeed, Nat.add_assoc]

theorem ofPosition_eq (source : Text) (position : Nat) :
    ofPosition source position =
      ⟨1 + (source.take position).count 0x0A, 1 + (lastLine (source.take position)).length⟩ :=
  foldl_next _

theorem ofPosition_of_length_le {source : Text} {position : Nat}
    (outside : source.length ≤ position) :
    ofPosition source position = ofPosition source source.length := by
  rw [ofPosition, List.take_of_length_le outside, ofPosition, List.take_length]

/-! ## The order of places -/

theorem ofPosition_succ {source : Text} {position : Nat} (inside : position < source.length) :
    ofPosition source (position + 1) = (ofPosition source position).next source[position] := by
  rw [ofPosition, List.take_succ_eq_append_getElem inside, List.foldl_append]
  rfl

/-- Places follow one another as the positions of a text do. -/
theorem ofPosition_before {source : Text} {first second : Nat} (earlier : first < second)
    (inside : second ≤ source.length) :
    (ofPosition source first).Before (ofPosition source second) := by
  induction second, earlier using Nat.le_induction with
  | base =>
    rw [ofPosition_succ inside]
    exact before_next _ _
  | succ second _ ih =>
    have here := ih (Nat.le_of_succ_le inside)
    rw [ofPosition_succ inside]
    exact here.trans (before_next _ _)

theorem ofPosition_inj {source : Text} {first second : Nat} (firstInside : first ≤ source.length)
    (secondInside : second ≤ source.length)
    (same : ofPosition source first = ofPosition source second) : first = second := by
  rcases Nat.lt_trichotomy first second with earlier | equal | later
  · exact absurd same (ofPosition_before earlier secondInside).ne
  · exact equal
  · exact absurd same.symm (ofPosition_before later firstInside).ne

end Location

namespace ParseError

open Location (lastLine)

theorem found_eq_nil_iff {source expected : Text} {position : Nat} :
    (ofPosition source position expected).found = [] ↔ source.length ≤ position := by
  simp [ofPosition, excerptLength]

/-- Main result: what an error says about the place of a position. -/
theorem ofPosition_place (source expected : Text) :
    (∀ position ≤ source.length,
      (ofPosition source position expected).location.line =
          1 + (source.take position).count 0x0A ∧
        (ofPosition source position expected).location.column =
          1 + (lastLine (source.take position)).length ∧
        ((ofPosition source position expected).found = [] ↔ position = source.length)) ∧
    (∀ position, source.length < position →
      (ofPosition source position expected).location =
        (ofPosition source source.length expected).location) ∧
    (∀ first second, first < second → second ≤ source.length →
      (ofPosition source first expected).location.Before
        (ofPosition source second expected).location) ∧
    ∀ first second, first ≤ source.length → second ≤ source.length →
      (ofPosition source first expected).location = (ofPosition source second expected).location →
        first = second := by
  refine ⟨fun position inside => ?_, fun position outside => ?_, fun first second => ?_,
    fun first second => Location.ofPosition_inj⟩
  · have place := Location.ofPosition_eq source position
    refine ⟨congrArg Location.line place, congrArg Location.column place, ?_⟩
    rw [found_eq_nil_iff]
    omega
  · exact Location.ofPosition_of_length_le outside.le
  · exact Location.ofPosition_before

/-- A position at a line feed, the one after it and the end of the text. -/
theorem ofPosition_place_lines :
    let source := Text.ofString "<p>\n</b>"
    let error (position : Nat) := ofPosition source position (Text.ofString "</p>")
    (3 ≤ source.length ∧ 3 < 4 ∧ 4 ≤ source.length ∧ source.length < 9) ∧
      (error 3).location.line = 1 ∧ (error 3).location.column = 4 ∧
      (error 3).location.Before (error 4).location ∧ (error 4).location = ⟨2, 1⟩ ∧
      (error source.length).found = [] ∧ (error 9).location = (error source.length).location := by
  intro source error
  have inside : 3 ≤ source.length := by decide
  have after : 4 ≤ source.length := by decide
  have outside : source.length < 9 := by decide
  obtain ⟨places, past, ordered, _⟩ := ofPosition_place source (Text.ofString "</p>")
  obtain ⟨line, column, _⟩ := places 3 inside
  obtain ⟨_, _, atEnd⟩ := places source.length (Nat.le_refl _)
  exact ⟨⟨inside, by decide, after, outside⟩, line, column, ordered 3 4 (by decide) after,
    by decide, atEnd.mpr rfl, past 9 outside⟩

end ParseError
end HtmlFragments
