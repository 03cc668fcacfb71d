import HtmlFragments.Text.Basic

/-! # Reading along a text

A cursor is a position together with the text from there on. It may stand past the end, where the
remaining text is empty. A reader takes a cursor and gives a value and the place after it, or says
what it expected and where. An error shows that place as a line and a column. -/
set_option autoImplicit false

namespace HtmlFragments

structure Cursor where
  position : Nat
  rest : Text
deriving DecidableEq, Repr

/-- Reading stopped: something was expected at a position and something else stands there. -/
structure Failure (Expectation : Type) where
  expectation : Expectation
  position : Nat
deriving DecidableEq, Repr

theorem ok_of_bind_ok {Error Item Value : Type} {first : Except Error Item}
    {next : Item → Except Error Value} {value : Value} (success : first >>= next = .ok value) :
    ∃ item, first = .ok item ∧ next item = .ok value := by
  cases first with
  | error failure => cases success
  | ok item => exact ⟨item, rfl, success⟩

namespace Cursor

def start (source : Text) : Cursor := ⟨0, source⟩

def advance (cursor : Cursor) (count : Nat) : Cursor :=
  ⟨cursor.position + count, cursor.rest.drop count⟩

def span (belongs : CodeUnit → Bool) (cursor : Cursor) : Text × Cursor :=
  (cursor.rest.takeWhile belongs, cursor.advance (cursor.rest.takeWhile belongs).length)

def skipWhitespace (cursor : Cursor) : Cursor := (cursor.span CodeUnit.isWhitespace).2

def remaining (cursor : Cursor) : Nat := cursor.rest.length

theorem advance_remaining (cursor : Cursor) (count : Nat) :
    (cursor.advance count).remaining = cursor.remaining - count :=
  List.length_drop

theorem advance_remaining_le (cursor : Cursor) (count : Nat) :
    (cursor.advance count).remaining ≤ cursor.remaining := by
  rw [advance_remaining]
  exact Nat.sub_le _ _

theorem advance_remaining_lt (cursor : Cursor) (count : Nat) (nonempty : 0 < cursor.remaining)
    (moves : 0 < count) : (cursor.advance count).remaining < cursor.remaining := by
  rw [advance_remaining]
  omega

theorem span_remaining_le (belongs : CodeUnit → Bool) (cursor : Cursor) :
    (cursor.span belongs).2.remaining ≤ cursor.remaining :=
  advance_remaining_le _ _

theorem skipWhitespace_remaining_le (cursor : Cursor) :
    cursor.skipWhitespace.remaining ≤ cursor.remaining :=
  span_remaining_le _ _

theorem span_remaining_lt (belongs : CodeUnit → Bool) (cursor : Cursor) (unit : CodeUnit)
    (rest : Text) (shows : cursor.rest = unit :: rest) (first : belongs unit = true) :
    (cursor.span belongs).2.remaining < cursor.remaining := by
  apply advance_remaining_lt
  · simp [remaining, shows]
  · simp [shows, first]

theorem skipWhitespace_remaining_lt (cursor : Cursor)
    (moved : cursor.skipWhitespace.position ≠ cursor.position) :
    cursor.skipWhitespace.remaining < cursor.remaining := by
  have shorter : (cursor.rest.takeWhile CodeUnit.isWhitespace).length ≤ cursor.rest.length :=
    (List.takeWhile_prefix _).length_le
  have advanced : cursor.skipWhitespace.remaining =
      cursor.remaining - (cursor.rest.takeWhile CodeUnit.isWhitespace).length :=
    advance_remaining _ _
  simp only [skipWhitespace, span, advance] at moved
  rw [advanced]
  simp only [remaining]
  omega

end Cursor

/-! ## Lines and columns

Only a line feed starts a new line. Lines and columns count from one. -/

structure Location where
  line : Nat
  column : Nat
deriving DecidableEq, Repr

namespace Location

def start : Location := ⟨1, 1⟩

def next (location : Location) (unit : CodeUnit) : Location :=
  if unit == 0x0A then ⟨location.line + 1, 1⟩ else ⟨location.line, location.column + 1⟩

/-- The location of a position. A position past the end has the location of the end. -/
def ofPosition (source : Text) (position : Nat) : Location :=
  (source.take position).foldl next start

end Location

/-! ## Errors

An error says what was expected at a position and shows the text from there on, cut to twenty
units. -/

structure ParseError where
  expected : Text
  found : Text
  position : Nat
  location : Location
deriving DecidableEq, Repr

namespace ParseError

def excerptLength : Nat := 20

def ofPosition (source : Text) (position : Nat) (expected : Text) : ParseError where
  expected := expected
  found := (source.drop position).take excerptLength
  position := position
  location := Location.ofPosition source position

/-- The last step of a reader: a failure becomes an error that shows its place. -/
def locate {Expectation Value : Type} (source : Text) (describe : Expectation → Text)
    (reading : Except (Failure Expectation) Value) : Except ParseError Value :=
  reading.mapError fun failure =>
    ofPosition source failure.position (describe failure.expectation)

theorem locate_eq_ok {Expectation Value : Type} {source : Text} {describe : Expectation → Text}
    {reading : Except (Failure Expectation) Value} {value : Value} :
    locate source describe reading = .ok value ↔ reading = .ok value := by
  cases reading with
  | ok found =>
    constructor
    · intro located
      cases located
      rfl
    · intro same
      cases same
      rfl
  | error failure => exact iff_of_false nofun nofun

theorem locate_eq_error {Expectation Value : Type} {source : Text} {describe : Expectation → Text}
    {reading : Except (Failure Expectation) Value} {error : ParseError} :
    locate source describe reading = .error error ↔
      ∃ failure, reading = .error failure ∧
        error = ofPosition source failure.position (describe failure.expectation) := by
  cases reading with
  | ok found => exact iff_of_false nofun nofun
  | error failure =>
    constructor
    · intro located
      cases located
      exact ⟨failure, rfl, rfl⟩
    · rintro ⟨_, same, rfl⟩
      cases same
      rfl

def message (error : ParseError) : Text :=
  Text.ofString "Expected " ++ error.expected ++ Text.ofString " but found " ++
    (if error.found.isEmpty then Text.ofString "end of input" else error.found.quoted) ++
    Text.ofString " (line " ++ Text.ofNat error.location.line ++
    Text.ofString ", col " ++ Text.ofNat error.location.column ++ Text.ofString ")"

end ParseError
end HtmlFragments
