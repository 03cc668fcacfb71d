import HtmlFragments.Proofs.Document.Decoding
import HtmlFragments.Proofs.Numeric.WholeNumbers

/-! # Numeric references of any length

The digits of a reference are read as a binary64 value, which is rounded beyond `2 ^ 53` and
infinite beyond `2 ^ 1024`. Still no reference gives another text than its exact number does, as
every number that is rounded lies past the last point and stays there. Main result: a source put
together from literal runs and numeric references, with any number of digits in each, is one text
with the exact value of every reference. -/
set_option autoImplicit false

namespace HtmlFragments

namespace Markup

open Grammar

/-- A part of a source: a run of units that stand for themselves, or a numeric reference with its
digits, which a semicolon may close. -/
inductive Piece where
  | literal (run : Text)
  | decimal (digits : Text) (closed : Bool)
  | hexadecimal (mark : CodeUnit) (digits : Text) (closed : Bool)
deriving DecidableEq, Repr

namespace Piece

def closing (closed : Bool) : Text := if closed then [0x3B] else []

def source : Piece → Text
  | literal run => run
  | decimal digits closed => 0x26 :: 0x23 :: (digits ++ closing closed)
  | hexadecimal mark digits closed => 0x26 :: 0x23 :: mark :: (digits ++ closing closed)

def value : Piece → Text
  | literal run => run
  | decimal digits _ => standsFor (Nat.ofDigits 10 (digits.reverse.map CodeUnit.digitValue))
  | hexadecimal _ digits _ => standsFor (Nat.ofDigits 16 (digits.reverse.map CodeUnit.digitValue))

/-- A row of digits without a semicolon does not go on in the text after it. -/
def Delimited (isDigit : CodeUnit → Bool) (closed : Bool) (rest : Text) : Prop :=
  closed = false → Text.Stops isDigit rest ∧ rest.head? ≠ some 0x3B

def FitsBefore (rest : Text) : Piece → Prop
  | literal run => run ≠ [] ∧ 0x3C ∉ run ∧ 0x26 ∉ run
  | decimal digits closed =>
    digits ≠ [] ∧ Text.AllOf CodeUnit.isDigit digits ∧ Delimited CodeUnit.isDigit closed rest
  | hexadecimal mark digits closed =>
    (mark = 0x78 ∨ mark = 0x58) ∧ digits ≠ [] ∧ Text.AllOf CodeUnit.isHexDigit digits ∧
      Delimited CodeUnit.isHexDigit closed rest

def AllFit : List Piece → Prop
  | [] => True
  | piece :: others => piece.FitsBefore (others.flatMap source) ∧ AllFit others

instance (isDigit : CodeUnit → Bool) (closed : Bool) (rest : Text) :
    Decidable (Delimited isDigit closed rest) :=
  inferInstanceAs (Decidable (_ → _))

instance (rest : Text) : (piece : Piece) → Decidable (piece.FitsBefore rest)
  | literal _ => inferInstanceAs (Decidable (_ ∧ _ ∧ _))
  | decimal _ _ => inferInstanceAs (Decidable (_ ∧ _ ∧ _))
  | hexadecimal _ _ _ => inferInstanceAs (Decidable (_ ∧ _ ∧ _ ∧ _))

instance decidableAllFit : (pieces : List Piece) → Decidable (AllFit pieces)
  | [] => .isTrue trivial
  | _ :: others => have := decidableAllFit others; inferInstanceAs (Decidable (_ ∧ AllFit others))

theorem digitsEnd_closing {isDigit : CodeUnit → Bool} {closed : Bool} {rest : Text}
    (delimited : Delimited isDigit closed rest) : DigitsEnd isDigit rest (closing closed) := by
  cases closed with
  | true => exact .semicolon
  | false =>
    obtain ⟨stops, noSemicolon⟩ := delimited rfl
    exact .nothing stops noSemicolon

theorem source_ne_nil {piece : Piece} {rest : Text} (fits : piece.FitsBefore rest) :
    piece.source ≠ [] := by
  cases piece with
  | literal run => exact fits.1
  | decimal digits closed => exact List.cons_ne_nil _ _
  | hexadecimal mark digits closed => exact List.cons_ne_nil _ _

theorem noOpening_digits {isDigit : CodeUnit → Bool} {digits : Text} (closed : Bool)
    (outside : isDigit 0x3C = false) (inside : Text.AllOf isDigit digits) :
    0x3C ∉ digits ++ closing closed := by
  intro member
  rcases List.mem_append.mp member with digit | last
  · exact absurd (inside _ digit) (by rw [outside]; decide)
  · cases closed <;> exact absurd last (by decide)

theorem noOpening_source {piece : Piece} {rest : Text} (fits : piece.FitsBefore rest) :
    0x3C ∉ piece.source := by
  cases piece with
  | literal run => exact fits.2.1
  | decimal digits closed =>
    obtain ⟨_, inside, _⟩ := fits
    have absent := noOpening_digits closed (by decide) inside
    simp [source, absent]
  | hexadecimal mark digits closed =>
    obtain ⟨marked, _, inside, _⟩ := fits
    have absent := noOpening_digits closed (by decide) inside
    rcases marked with rfl | rfl <;> simp [source, absent]

theorem noOpening_sources {pieces : List Piece} (fit : AllFit pieces) :
    0x3C ∉ pieces.flatMap source := by
  induction pieces with
  | nil => exact List.not_mem_nil
  | cons piece others ih =>
    obtain ⟨fits, othersFit⟩ := fit
    rw [List.flatMap_cons, List.mem_append, not_or]
    exact ⟨noOpening_source fits, ih othersFit⟩

theorem decodes_run {table : List (Text × Text)} {run rest value : Text} (free : 0x26 ∉ run)
    (later : Decodes table rest value) : Decodes table (run ++ rest) (run ++ value) := by
  induction run with
  | nil => exact later
  | cons unit more ih =>
    obtain ⟨notAmpersand, freeMore⟩ := not_or.mp (mt List.mem_cons.mpr free)
    exact .literal (fun isAmpersand => absurd isAmpersand.symm notAmpersand) (ih freeMore)

theorem decodes_source {table : List (Text × Text)} {piece : Piece} {rest value : Text}
    (fits : piece.FitsBefore rest) (later : Decodes table rest value) :
    Decodes table (piece.source ++ rest) (piece.value ++ value) := by
  cases piece with
  | literal run => exact decodes_run fits.2.2 later
  | decimal digits closed =>
    obtain ⟨nonempty, inside, delimited⟩ := fits
    have reference : ReferenceBefore table rest _ _ :=
      .decimal nonempty inside (digitsEnd_closing delimited)
    rw [Text.numberOfDigits_eq_ofDigits] at reference
    exact .reference reference later
  | hexadecimal mark digits closed =>
    obtain ⟨marked, nonempty, inside, delimited⟩ := fits
    have reference : ReferenceBefore table rest _ _ :=
      .hexadecimal marked nonempty inside (digitsEnd_closing delimited)
    rw [Text.numberOfDigits_eq_ofDigits] at reference
    exact .reference reference later

theorem decodes_sources {table : List (Text × Text)} {pieces : List Piece} (fit : AllFit pieces) :
    Decodes table (pieces.flatMap source) (pieces.flatMap value) := by
  induction pieces with
  | nil => exact .nil
  | cons piece others ih =>
    obtain ⟨fits, othersFit⟩ := fit
    rw [List.flatMap_cons, List.flatMap_cons]
    exact decodes_source fits (ih othersFit)

end Piece
end Markup

namespace Document

open Markup

/-- Main result: literal runs and numeric references are one text, in which every reference stands
for its exact number. -/
theorem parse_pieces {pieces : List Piece} (nonempty : pieces ≠ []) (fit : Piece.AllFit pieces)
    (unmarked : (pieces.flatMap Piece.source).head? ≠ some 0xFEFF) :
    parse (pieces.flatMap Piece.source) = .ok ⟨[.text (pieces.flatMap Piece.value)]⟩ := by
  have filled : pieces.flatMap Piece.source ≠ [] := by
    obtain ⟨piece, others, rfl⟩ := List.exists_cons_of_ne_nil nonempty
    rw [List.flatMap_cons]
    exact List.append_ne_nil_of_left_ne_nil (Piece.source_ne_nil fit.1) _
  exact parse_of_decodes filled (Piece.noOpening_sources fit) unmarked (Piece.decodes_sources fit)

/-- Leading zeros, a surrogate, a point beyond the basic plane, and a number past every finite
binary64 value. -/
theorem parse_numerals :
    let pieces : List Piece :=
      [.decimal (Text.ofString "00000000000000000000000065") false, .literal (Text.ofString " = "),
        .hexadecimal 0x78 (Text.ofString "D800") true,
        .hexadecimal 0x58 (Text.ofString "1f600") false,
        .decimal (List.replicate 400 0x39) true, .literal (Text.ofString "9;")]
    let value := Text.ofString "A = \uFFFD" ++ [0xD83D, 0xDE00] ++ Text.ofString "\uFFFD9;"
    (pieces ≠ [] ∧ Piece.AllFit pieces ∧ (pieces.flatMap Piece.source).head? ≠ some 0xFEFF) ∧
      parse (pieces.flatMap Piece.source) = .ok ⟨[.text value]⟩ := by
  intro pieces value
  have nonempty : pieces ≠ [] := List.cons_ne_nil _ _
  have fit : Piece.AllFit pieces := by decide +kernel
  have unmarked : (pieces.flatMap Piece.source).head? ≠ some 0xFEFF := by decide +kernel
  have same : pieces.flatMap Piece.value = value := by decide +kernel
  have parsed := parse_pieces nonempty fit unmarked
  rw [same] at parsed
  exact ⟨⟨nonempty, fit, unmarked⟩, parsed⟩

end Document
end HtmlFragments
