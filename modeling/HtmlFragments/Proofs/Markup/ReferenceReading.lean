import HtmlFragments.Proofs.Markup.Grammar
import HtmlFragments.Proofs.Numeric.WholeNumbers

/-! # Reading references

What follows a `&` either starts a reference, which is read whole and gives its value, or it does
not; then the `&` stands for itself and at most units of a reference name are read with it. -/
set_option autoImplicit false

namespace HtmlFragments.Reference

open Markup.Grammar (DigitsEnd ReferenceBefore ReferenceText StartsReference StartsMember IsPoint
  standsFor)

def isReferenceUnit (unit : CodeUnit) : Bool := isReferenceNameUnit unit || unit == 0x23

theorem read_of_not_numeric {text : Text} (notNumeric : text.head? ≠ some 0x23) :
    read text = readNamed text := by
  unfold read
  split
  · exact absurd rfl notNumeric
  · rfl

theorem names_known : ∀ entry ∈ names, entry.1.head? ≠ some 0x23 ∧ entry.1 ≠ [] ∧
    entry.1.all isReferenceNameUnit = true ∧ named? entry.1 = some entry.2 := by
  decide +kernel

theorem members_known : ∀ member ∈ NameTable.members,
    member.1.head? ≠ some 0x23 ∧ member.1 ≠ [] ∧ member.1.all isReferenceNameUnit = true ∧
      named? member.1 = some member.2 ∧ member.2 ≠ [] ∧ member.2.head? ≠ some 0x26 := by
  decide +kernel

theorem read_known {name value rest : Text} (notNumeric : name.head? ≠ some 0x23)
    (nonempty : name ≠ []) (inside : name.all isReferenceNameUnit = true)
    (known : named? name = some value) :
    read (name ++ 0x3B :: rest) = (value, name.length + 1) := by
  obtain ⟨unit, more, rfl⟩ := List.exists_cons_of_ne_nil nonempty
  have stops : Text.Stops isReferenceNameUnit (0x3B :: rest) := by
    show isReferenceNameUnit 0x3B = false
    decide
  have all : Text.AllOf isReferenceNameUnit (unit :: more) := List.all_eq_true.mp inside
  rw [read_of_not_numeric (by simpa using notNumeric), readNamed,
    Text.takeWhile_append_of_stops _ _ _ all stops, Text.dropWhile_append_of_stops _ _ _ all stops,
    known]
  rfl

/-- Rounding makes no point of a number and takes no point to another one. -/
theorem pointText_ofNat (number : Nat) : pointText (.ofNat number) = standsFor number := by
  by_cases small : number < 2 ^ 53
  · rw [pointText, Binary64.floor?_ofNat small]
    by_cases point : IsPoint number
    · rw [standsFor, if_pos point]
      exact if_neg (by unfold IsPoint at point; omega)
    · rw [standsFor, if_neg point]
      exact if_pos (by unfold IsPoint at point; omega)
  · have large : 2 ^ 53 ≤ number := Nat.le_of_not_lt small
    have noPoint : ¬IsPoint number := by
      unfold IsPoint
      omega
    rw [standsFor, if_neg noPoint, pointText]
    cases floor : (Binary64.ofNat number).floor? with
    | none => rfl
    | some whole =>
      have past := Binary64.le_floor?_ofNat large floor
      exact if_pos (by omega)

theorem semicolonLength_of_head?_ne {rest : Text} (absent : rest.head? ≠ some 0x3B) :
    semicolonLength rest = 0 := by
  unfold semicolonLength
  split
  · exact absurd rfl absent
  · rfl

theorem digitsEnd_stops {isDigit : CodeUnit → Bool} {ending rest : Text}
    (outside : isDigit 0x3B = false) (ends : DigitsEnd isDigit rest ending) :
    Text.Stops isDigit (ending ++ rest) ∧ semicolonLength (ending ++ rest) = ending.length := by
  cases ends with
  | semicolon => exact ⟨outside, rfl⟩
  | nothing stops absent => exact ⟨stops, semicolonLength_of_head?_ne absent⟩

theorem readDigits_of_digitsEnd {base : Nat} {isDigit : CodeUnit → Bool}
    {opening digits ending rest : Text} (outside : isDigit 0x3B = false) (nonempty : digits ≠ [])
    (inside : Text.AllOf isDigit digits) (ends : DigitsEnd isDigit rest ending) :
    readDigits base isDigit opening (digits ++ (ending ++ rest)) =
      (standsFor (Text.numberOfDigits base digits),
        opening.length + (digits ++ ending).length) := by
  obtain ⟨stops, count⟩ := digitsEnd_stops outside ends
  have filled : digits.isEmpty = false := by simpa using nonempty
  simp only [readDigits, Text.takeWhile_append_of_stops _ _ _ inside stops,
    Text.dropWhile_append_of_stops _ _ _ inside stops, filled, Bool.false_eq_true, if_false,
    pointText_ofNat, count, List.length_append, Nat.add_assoc]

theorem readNumeric_decimal {text : Text} (notLower : text.head? ≠ some 0x78)
    (notUpper : text.head? ≠ some 0x58) :
    readNumeric text = readDigits 10 CodeUnit.isDigit [0x23] text := by
  unfold readNumeric
  split
  · exact absurd rfl notLower
  · exact absurd rfl notUpper
  · rfl

theorem readNumeric_isDigit {digit : CodeUnit} (first : CodeUnit.isDigit digit = true)
    (rest : Text) :
    readNumeric (digit :: rest) = readDigits 10 CodeUnit.isDigit [0x23] (digit :: rest) := by
  have notMark : ∀ mark, CodeUnit.isDigit mark = false → (digit :: rest).head? ≠ some mark := by
    intro mark noDigit same
    cases same
    rw [first] at noDigit
    cases noDigit
  exact readNumeric_decimal (notMark 0x78 (by decide)) (notMark 0x58 (by decide))

theorem readNumeric_hexadecimal {mark : CodeUnit} (marked : mark = 0x78 ∨ mark = 0x58)
    (rest : Text) :
    readNumeric (mark :: rest) = readDigits 16 CodeUnit.isHexDigit [0x23, mark] rest := by
  rcases marked with rfl | rfl <;> rfl

/-- A reference is read whole, one by the name of a member as well. -/
theorem read_of_referenceBefore {stands written rest : Text}
    (reference : ReferenceBefore (names ++ NameTable.members) rest stands written) :
    read (written ++ rest) = (stands, written.length) := by
  cases reference with
  | named entry =>
    rw [List.append_assoc, List.length_append]
    rcases List.mem_append.mp entry with entry | member
    · obtain ⟨notNumeric, nonempty, inside, known⟩ := names_known _ entry
      exact read_known notNumeric nonempty inside known
    · obtain ⟨notNumeric, nonempty, inside, known, _⟩ := members_known _ member
      exact read_known notNumeric nonempty inside known
  | @decimal digits ending nonempty inside ends =>
    have reads : readDigits 10 CodeUnit.isDigit [0x23] (digits ++ (ending ++ rest)) = _ :=
      readDigits_of_digitsEnd (by decide) nonempty inside ends
    obtain ⟨digit, more, rfl⟩ := List.exists_cons_of_ne_nil nonempty
    rw [List.cons_append, List.append_assoc, List.length_cons, Nat.add_comm]
    exact (readNumeric_isDigit (inside digit List.mem_cons_self) _).trans reads
  | @hexadecimal mark digits ending marked nonempty inside ends =>
    have reads : readDigits 16 CodeUnit.isHexDigit [0x23, mark] (digits ++ (ending ++ rest)) = _ :=
      readDigits_of_digitsEnd (by decide) nonempty inside ends
    have count : (0x23 :: mark :: (digits ++ ending)).length = 2 + (digits ++ ending).length := by
      rw [List.length_cons, List.length_cons, Nat.add_comm 2]
    rw [count, List.cons_append, List.cons_append, List.append_assoc]
    exact (readNumeric_hexadecimal marked _).trans reads

theorem read_of_referenceText {stands written : Text} (reference : ReferenceText stands written)
    (rest : Text) : read (written ++ rest) = (stands, written.length) := by
  apply read_of_referenceBefore
  cases reference with
  | named entry => exact .named (List.mem_append_left _ entry)
  | decimal nonempty inside point =>
    have same : standsFor _ = Text.encode _ := if_pos point
    rw [← same]
    exact .decimal nonempty inside .semicolon
  | hexadecimal marked nonempty inside point =>
    have same : standsFor _ = Text.encode _ := if_pos point
    rw [← same]
    exact .hexadecimal marked nonempty inside .semicolon

theorem named?_cases {name value : Text} (known : named? name = some value) :
    (name, value) ∈ names ∨ (name, value) ∈ NameTable.members := by
  unfold named? NameTable.find? at known
  cases entry : names.lookup name with
  | some stands =>
    simp only [entry] at known
    cases known
    exact .inl (mem_of_lookup entry)
  | none =>
    simp only [entry] at known
    cases member : NameTable.members.lookup name with
    | some text =>
      simp only [member, Option.map_some] at known
      cases known
      exact .inr (mem_of_lookup member)
    | none =>
      simp only [member, Option.map_none] at known
      cases known

/-- The word that is read with a `&` that stands for itself. -/
def ReadsLiteral (text : Text) : Prop :=
  ∃ word more, text = word ++ more ∧ Text.AllOf isReferenceUnit word ∧
    read text = (0x26 :: word, word.length)

theorem readsLiteral_opening {base : Nat} {isDigit : CodeUnit → Bool} (opening : Text) {rest : Text}
    (inside : Text.AllOf isReferenceUnit opening)
    (reads : read (opening ++ rest) = readDigits base isDigit opening rest)
    (noDigit : ∀ digit more, rest = digit :: more → isDigit digit = false) :
    ReadsLiteral (opening ++ rest) := by
  refine ⟨opening, rest, rfl, inside, ?_⟩
  have none : rest.takeWhile isDigit = [] := by
    cases rest with
    | nil => rfl
    | cons digit more => rw [List.takeWhile_cons, noDigit digit more rfl]; rfl
  rw [reads, readDigits, none]
  rfl

theorem readsLiteral_numeric {rest : Text} (noReference : ¬StartsReference (0x23 :: rest)) :
    ReadsLiteral (0x23 :: rest) := by
  have hexadecimal : ∀ mark more, mark = 0x78 ∨ mark = 0x58 → rest = mark :: more →
      ReadsLiteral (0x23 :: rest) := by
    rintro mark more marked rfl
    refine readsLiteral_opening [0x23, mark] ?_ (readNumeric_hexadecimal marked more) ?_
    · rcases marked with rfl | rfl <;> exact List.all_eq_true.mp (by decide)
    · rintro digit after rfl
      rw [← Bool.not_eq_true]
      intro isDigit
      exact noReference (.hexadecimal marked isDigit)
  by_cases lower : rest.head? = some 0x78
  · obtain ⟨more, shows⟩ := List.head?_eq_some_iff.mp lower
    exact hexadecimal _ more (.inl rfl) shows
  by_cases upper : rest.head? = some 0x58
  · obtain ⟨more, shows⟩ := List.head?_eq_some_iff.mp upper
    exact hexadecimal _ more (.inr rfl) shows
  refine readsLiteral_opening [0x23] (List.all_eq_true.mp (by decide))
    (readNumeric_decimal lower upper) ?_
  rintro digit after rfl
  rw [← Bool.not_eq_true]
  intro isDigit
  exact noReference (.decimal isDigit)

theorem readsLiteral {text : Text} (noReference : ¬StartsReference text)
    (noMember : ¬StartsMember text) : ReadsLiteral text := by
  by_cases numeric : text.head? = some 0x23
  · obtain ⟨rest, rfl⟩ := List.head?_eq_some_iff.mp numeric
    exact readsLiteral_numeric noReference
  refine ⟨text.takeWhile isReferenceNameUnit, text.dropWhile isReferenceNameUnit,
    List.takeWhile_append_dropWhile.symm, ?_, ?_⟩
  · intro unit member
    rw [isReferenceUnit, Text.allOf_takeWhile _ _ unit member]
    rfl
  · rw [read_of_not_numeric numeric]
    simp only [readNamed]
    split
    · rename_i value rest known semicolon
      have split : text = text.takeWhile isReferenceNameUnit ++ 0x3B :: rest := by
        rw [← semicolon, List.takeWhile_append_dropWhile]
      rcases named?_cases known with entry | member
      · rw [split] at noReference
        exact absurd (.named entry) noReference
      · exact absurd ⟨_, member, rest, split⟩ noMember
    · rfl

/-- The name of a member is read as a reference, and no value of a member begins with `&`. -/
theorem read_of_startsMember {text : Text} (startsMember : StartsMember text) :
    ∃ unit more, (read text).1 = unit :: more ∧ unit ≠ 0x26 := by
  obtain ⟨⟨name, value⟩, member, rest, rfl⟩ := startsMember
  obtain ⟨notNumeric, nonempty, inside, known, filled, notAmpersand⟩ := members_known _ member
  obtain ⟨unit, more, shows⟩ := List.exists_cons_of_ne_nil filled
  refine ⟨unit, more, ?_, ?_⟩
  · rw [read_known notNumeric nonempty inside known]
    exact shows
  · rintro rfl
    exact notAmpersand (by rw [shows]; rfl)

end HtmlFragments.Reference
