import HtmlFragments.Proofs.Markup.DataReading

/-! # What follows character data

A reference is read up to the first unit that cannot belong to it, and data up to the place where it
ends. What stands after that does not matter: it can be replaced by any text before which the
reading stops as well. -/
set_option autoImplicit false

namespace HtmlFragments

open Text (Stops AllOf)

namespace Reference

def isLookedAt (unit : CodeUnit) : Bool := isReferenceUnit unit || unit == 0x3B

/-- A reference that stops before the one text stops before the other one too. -/
def SameStop (rest other : Text) : Prop :=
  other.head? = rest.head? ∨ Stops isLookedAt rest ∧ Stops isLookedAt other

theorem SameStop.append (first : Text) {rest other : Text} (same : SameStop rest other) :
    SameStop (first ++ rest) (first ++ other) := by
  cases first with
  | nil => exact same
  | cons unit more => exact .inl rfl

theorem SameStop.stops {belongs : CodeUnit → Bool} {rest other : Text} (same : SameStop rest other)
    (lookedAt : ∀ unit, belongs unit = true → isLookedAt unit = true)
    (stops : Stops belongs rest) : Stops belongs other := by
  rcases same with head | ⟨_, otherStops⟩
  · exact stops.congr head
  · exact otherStops.mono lookedAt

theorem isLookedAt_of_isReferenceNameUnit (unit : CodeUnit)
    (isUnit : isReferenceNameUnit unit = true) : isLookedAt unit = true := by
  simp [isLookedAt, isReferenceUnit, isUnit]

theorem isLookedAt_of_isHexDigit (unit : CodeUnit) (isDigit : CodeUnit.isHexDigit unit = true) :
    isLookedAt unit = true := by
  apply isLookedAt_of_isReferenceNameUnit
  simp only [CodeUnit.isHexDigit, CodeUnit.isDigit, isReferenceNameUnit, CodeUnit.isNameUnit,
    CodeUnit.isIdentifierUnit, CodeUnit.isLetter, Bool.or_eq_true, Bool.and_eq_true,
    decide_eq_true_eq, bne_iff_ne] at isDigit ⊢
  grind

theorem isLookedAt_of_isDigit (unit : CodeUnit) (isDigit : CodeUnit.isDigit unit = true) :
    isLookedAt unit = true :=
  isLookedAt_of_isHexDigit unit (by simp [CodeUnit.isHexDigit, isDigit])

theorem SameStop.head?_ne {mark : CodeUnit} {rest other : Text} (same : SameStop rest other)
    (lookedAt : isLookedAt mark = true) (absent : rest.head? ≠ some mark) :
    other.head? ≠ some mark := by
  rw [← Text.stops_beq_iff] at absent ⊢
  apply same.stops ?_ absent
  intro unit isMark
  rw [beq_iff_eq.mp isMark]
  exact lookedAt

theorem readDigits_lookahead (base : Nat) {isDigit : CodeUnit → Bool} (opening text : Text)
    (lookedAt : ∀ unit, isDigit unit = true → isLookedAt unit = true)
    (notSemicolon : isDigit 0x3B = false) :
    ∃ taken rest, text = taken ++ rest ∧
      (readDigits base isDigit opening text).2 = opening.length + taken.length ∧
      ∀ other, SameStop rest other →
        readDigits base isDigit opening (taken ++ other) =
          readDigits base isDigit opening text := by
  obtain ⟨digits, rest, rfl, inside, stops⟩ := Text.exists_run isDigit text
  have reads : ∀ after, Stops isDigit after → readDigits base isDigit opening (digits ++ after) =
      if digits.isEmpty then (0x26 :: opening, opening.length)
      else (pointText (.ofNat (Text.numberOfDigits base digits)),
        opening.length + digits.length + semicolonLength after) := by
    intro after stopsAfter
    simp only [readDigits, Text.takeWhile_append_of_stops _ _ _ inside stopsAfter,
      Text.dropWhile_append_of_stops _ _ _ inside stopsAfter]
  by_cases semicolon : rest.head? = some 0x3B
  · obtain ⟨more, rfl⟩ := List.head?_eq_some_iff.mp semicolon
    cases digits with
    | nil =>
      refine ⟨[], 0x3B :: more, rfl, by rw [reads _ stops]; rfl, ?_⟩
      intro other same
      rw [List.nil_append, ← List.nil_append other, reads other (same.stops lookedAt stops),
        reads _ stops]
      rfl
    | cons digit others =>
      refine ⟨digit :: others ++ [0x3B], more, by simp, ?_, ?_⟩
      · rw [reads _ stops]
        simp [semicolonLength, Nat.add_assoc]
      · intro other _
        rw [List.append_assoc, reads _ stops, List.singleton_append,
          reads (0x3B :: other) notSemicolon]
        rfl
  · refine ⟨digits, rest, rfl, ?_, ?_⟩
    · rw [reads _ stops, semicolonLength_of_head?_ne semicolon]
      cases digits <;> rfl
    · intro other same
      rw [reads _ stops, reads other (same.stops lookedAt stops),
        semicolonLength_of_head?_ne semicolon,
        semicolonLength_of_head?_ne (same.head?_ne (by decide) semicolon)]

theorem readNumeric_lookahead (text : Text) :
    ∃ taken rest, text = taken ++ rest ∧ (readNumeric text).2 = 1 + taken.length ∧
      ∀ other, SameStop rest other → readNumeric (taken ++ other) = readNumeric text := by
  have hexadecimal : ∀ mark more, mark = 0x78 ∨ mark = 0x58 → text = mark :: more →
      ∃ taken rest, text = taken ++ rest ∧ (readNumeric text).2 = 1 + taken.length ∧
        ∀ other, SameStop rest other → readNumeric (taken ++ other) = readNumeric text := by
    rintro mark more marked rfl
    obtain ⟨taken, rest, rfl, count, reads⟩ :=
      readDigits_lookahead 16 [0x23, mark] more isLookedAt_of_isHexDigit (by decide)
    refine ⟨mark :: taken, rest, rfl, ?_, ?_⟩
    · rw [readNumeric_hexadecimal marked, count, List.length_cons]
      simp only [List.length_cons, List.length_nil]
      omega
    · intro other same
      rw [List.cons_append, readNumeric_hexadecimal marked, reads other same,
        readNumeric_hexadecimal marked]
  by_cases lower : text.head? = some 0x78
  · obtain ⟨more, shows⟩ := List.head?_eq_some_iff.mp lower
    exact hexadecimal _ more (.inl rfl) shows
  by_cases upper : text.head? = some 0x58
  · obtain ⟨more, shows⟩ := List.head?_eq_some_iff.mp upper
    exact hexadecimal _ more (.inr rfl) shows
  obtain ⟨taken, rest, rfl, count, reads⟩ :=
    readDigits_lookahead 10 [0x23] text isLookedAt_of_isDigit (by decide)
  refine ⟨taken, rest, rfl, by rw [readNumeric_decimal lower upper, count]; rfl, ?_⟩
  intro other same
  have whole := same.append taken
  rw [readNumeric_decimal (whole.head?_ne (by decide) lower) (whole.head?_ne (by decide) upper),
    reads other same, readNumeric_decimal lower upper]

theorem readNamed_known {name value : Text} (inside : AllOf isReferenceNameUnit name)
    (known : named? name = some value) (rest : Text) :
    readNamed (name ++ 0x3B :: rest) = (value, name.length + 1) := by
  have stops : Stops isReferenceNameUnit (0x3B :: rest) := by
    show isReferenceNameUnit 0x3B = false
    decide
  simp only [readNamed, Text.takeWhile_append_of_stops _ _ _ inside stops,
    Text.dropWhile_append_of_stops _ _ _ inside stops, known]

theorem readNamed_literal {name rest : Text} (inside : AllOf isReferenceNameUnit name)
    (stops : Stops isReferenceNameUnit rest)
    (unresolved : named? name = none ∨ rest.head? ≠ some 0x3B) :
    readNamed (name ++ rest) = (0x26 :: name, name.length) := by
  simp only [readNamed, Text.takeWhile_append_of_stops _ _ _ inside stops,
    Text.dropWhile_append_of_stops _ _ _ inside stops]
  split
  · rename_i known
    rcases unresolved with unknown | noSemicolon
    · rw [unknown] at known
      cases known
    · exact absurd rfl noSemicolon
  · rfl

theorem readNamed_lookahead (text : Text) :
    ∃ taken rest, text = taken ++ rest ∧ (readNamed text).2 = taken.length ∧
      ∀ other, SameStop rest other → readNamed (taken ++ other) = readNamed text := by
  obtain ⟨name, rest, rfl, inside, stops⟩ := Text.exists_run isReferenceNameUnit text
  have literal : (∀ other, SameStop rest other → named? name = none ∨ other.head? ≠ some 0x3B) →
      ∃ taken tail, name ++ rest = taken ++ tail ∧ (readNamed (name ++ rest)).2 = taken.length ∧
        ∀ other, SameStop tail other → readNamed (taken ++ other) = readNamed (name ++ rest) := by
    intro unresolved
    have reads : ∀ other, SameStop rest other →
        readNamed (name ++ other) = (0x26 :: name, name.length) := by
      intro other same
      exact readNamed_literal inside (same.stops isLookedAt_of_isReferenceNameUnit stops)
        (unresolved other same)
    refine ⟨name, rest, rfl, by rw [reads rest (.inl rfl)], ?_⟩
    intro other same
    rw [reads other same, reads rest (.inl rfl)]
  cases known : named? name with
  | none => exact literal fun _ _ => .inl known
  | some value =>
    by_cases semicolon : rest.head? = some 0x3B
    · obtain ⟨more, rfl⟩ := List.head?_eq_some_iff.mp semicolon
      refine ⟨name ++ [0x3B], more, by simp, ?_, ?_⟩
      · rw [readNamed_known inside known]
        simp
      · intro other _
        rw [List.append_assoc, List.singleton_append, readNamed_known inside known,
          readNamed_known inside known]
    · exact literal fun _ same => .inr (same.head?_ne (by decide) semicolon)

/-- A reference is read alike before texts that stop it alike. -/
theorem read_lookahead (text : Text) :
    ∃ taken rest, text = taken ++ rest ∧ (read text).2 = taken.length ∧
      ∀ other, SameStop rest other → read (taken ++ other) = read text := by
  by_cases numeric : text.head? = some 0x23
  · obtain ⟨more, rfl⟩ := List.head?_eq_some_iff.mp numeric
    obtain ⟨taken, rest, rfl, count, reads⟩ := readNumeric_lookahead more
    refine ⟨0x23 :: taken, rest, rfl, ?_, reads⟩
    rw [List.length_cons, Nat.add_comm]
    exact count
  · obtain ⟨taken, rest, rfl, count, reads⟩ := readNamed_lookahead text
    refine ⟨taken, rest, rfl, by rw [read_of_not_numeric numeric, count], ?_⟩
    intro other same
    rw [read_of_not_numeric ((same.append taken).head?_ne (by decide) numeric), reads other same,
      read_of_not_numeric numeric]

/-- What no reference takes can be put after a text. -/
theorem read_append {next : Text} (stops : Stops isLookedAt next) (text : Text) :
    read (text ++ next) = read text := by
  obtain ⟨taken, rest, rfl, _, reads⟩ := read_lookahead text
  have same : SameStop (rest ++ []) (rest ++ next) := SameStop.append rest (.inr ⟨trivial, stops⟩)
  rw [List.append_nil] at same
  rw [List.append_assoc]
  exact reads _ same

theorem read_count_le (text : Text) : (read text).2 ≤ text.length := by
  obtain ⟨taken, rest, rfl, count, _⟩ := read_lookahead text
  rw [count, List.length_append]
  exact Nat.le_add_right _ _

theorem encode_ne_nil (point : Nat) : Text.encode point ≠ [] := by
  unfold Text.encode
  split <;> exact List.cons_ne_nil _ _

theorem pointText_ne_nil (number : Binary64) : pointText number ≠ [] := by
  unfold pointText
  split
  · split
    · exact List.cons_ne_nil _ _
    · exact encode_ne_nil _
  · exact List.cons_ne_nil _ _

theorem readDigits_ne_nil (base : Nat) (isDigit : CodeUnit → Bool) (opening text : Text) :
    (readDigits base isDigit opening text).1 ≠ [] := by
  simp only [readDigits]
  split
  · exact List.cons_ne_nil _ _
  · dsimp only
    exact pointText_ne_nil _

theorem named?_ne_nil {name value : Text} (known : named? name = some value) : value ≠ [] := by
  have entries : ∀ entry ∈ names, entry.2 ≠ [] := by decide
  rcases named?_cases known with entry | member
  · exact entries _ entry
  · exact (members_known _ member).2.2.2.2.1

theorem read_ne_nil (text : Text) : (read text).1 ≠ [] := by
  unfold read
  split
  · unfold readNumeric
    split <;> exact readDigits_ne_nil _ _ _ _
  · simp only [readNamed]
    split
    · rename_i known _
      exact named?_ne_nil known
    · exact List.cons_ne_nil _ _

end Reference

namespace CharacterData

open Markup (endsText)
open Markup.Grammar (isQuote)
open Reference (SameStop isLookedAt)

/-- Whether data ends at a place shows in two units, and no unit that a reference takes or asks for
ends it. -/
structure Foresees (ends : Text → Bool) : Prop where
  two_units : ∀ unit next rest other, ends (unit :: next :: rest) = ends (unit :: next :: other)
  lookedAt : ∀ unit rest, isLookedAt unit = true → ends (unit :: rest) = false

def Continues (ends : Text → Bool) (rest other : Text) : Prop :=
  ∀ unit, ends (unit :: rest) = false → ends (unit :: other) = false

theorem Foresees.stops {ends : Text → Bool} (foresees : Foresees ends) {rest : Text}
    (ended : Ended ends rest) : Stops isLookedAt rest := by
  cases rest with
  | nil => trivial
  | cons unit more =>
    rcases ended with nothing | ended
    · cases nothing
    · show isLookedAt unit = false
      rw [← Bool.not_eq_true]
      intro inside
      rw [foresees.lookedAt unit more inside] at ended
      cases ended

theorem Foresees.continues_append {ends : Text → Bool} (foresees : Foresees ends)
    {unit : CodeUnit} {word rest other : Text} (continues : Continues ends rest other)
    (going : ends (unit :: (word ++ rest)) = false) : ends (unit :: (word ++ other)) = false := by
  cases word with
  | nil => exact continues unit going
  | cons next more =>
    rw [← going]
    exact foresees.two_units unit next _ _

theorem read_of_ampersand {ends : Text → Bool} {word rest : Text}
    (going : ends (0x26 :: (word ++ rest)) = false)
    (count : (Reference.read (word ++ rest)).2 = word.length) :
    read ends (0x26 :: (word ++ rest)) =
      ((Reference.read (word ++ rest)).1 ++ (read ends rest).1,
        1 + word.length + (read ends rest).2) := by
  rw [read, if_neg (by rw [going]; decide), if_pos rfl]
  simp only [count, List.drop_left]

/-- Data is read alike before any two texts at which it ends. -/
theorem read_lookahead {ends : Text → Bool} (foresees : Foresees ends) (text : Text) :
    ∃ taken rest, text = taken ++ rest ∧ (read ends text).2 = taken.length ∧ Ended ends rest ∧
      ∀ other, Ended ends other → Continues ends rest other →
        read ends (taken ++ other) = read ends text := by
  induction text using read.induct ends with
  | case1 =>
    refine ⟨[], [], rfl, by rw [read]; rfl, .inl rfl, ?_⟩
    intro other ended _
    rw [List.nil_append, read_ended ended, read_ended (.inl rfl)]
  | case2 unit rest ends =>
    refine ⟨[], unit :: rest, rfl, by rw [read_ended (.inr ends)]; rfl, .inr ends, ?_⟩
    intro other ended _
    rw [List.nil_append, read_ended ended, read_ended (.inr ends)]
  | case3 text reference notEnds ih =>
    have going : ends (0x26 :: text) = false := by simpa using notEnds
    obtain ⟨word, after, rfl, count, reads⟩ := Reference.read_lookahead text
    rw [count, List.drop_left] at ih
    obtain ⟨taken, rest, rfl, countMore, ended, readsMore⟩ := ih
    refine ⟨0x26 :: (word ++ taken), rest, by simp, ?_, ended, ?_⟩
    · rw [read_of_ampersand going count, countMore, List.length_cons, List.length_append]
      omega
    · intro other otherEnded continues
      have same : SameStop (taken ++ rest) (taken ++ other) :=
        SameStop.append taken (.inr ⟨foresees.stops ended, foresees.stops otherEnded⟩)
      have otherGoing : ends (0x26 :: (word ++ (taken ++ other))) = false := by
        rw [← List.append_assoc] at going ⊢
        exact foresees.continues_append continues going
      have otherReads := reads _ same
      rw [List.cons_append, List.append_assoc,
        read_of_ampersand otherGoing (by rw [otherReads, count]), read_of_ampersand going count,
        otherReads, readsMore other otherEnded continues]
  | case4 unit text notEnds notAmpersand ih =>
    have going : ends (unit :: text) = false := by simpa using notEnds
    obtain ⟨taken, rest, rfl, count, ended, reads⟩ := ih
    refine ⟨unit :: taken, rest, rfl, ?_, ended, ?_⟩
    · rw [read_literal going notAmpersand, count, List.length_cons, Nat.add_comm]
    · intro other otherEnded continues
      rw [List.cons_append, read_literal (foresees.continues_append continues going) notAmpersand,
        reads other otherEnded continues, read_literal going notAmpersand]

/-- Two kinds of data that no unit of a text ends read the text alike, the one up to its end and the
other one at the end of the source. -/
theorem read_append {ends : Text → Bool} (foresees : Foresees ends) (other : Text → Bool)
    {text next : Text} (ended : Ended ends next)
    (going : ∀ unit ∈ text, ∀ rest, ends (unit :: rest) = false)
    (otherGoing : ∀ unit ∈ text, ∀ rest, other (unit :: rest) = false) :
    read ends (text ++ next) = read other text := by
  induction text using read.induct other with
  | case1 => rw [List.nil_append, read_ended ended, read_ended (.inl rfl)]
  | case2 unit rest ends =>
    rw [otherGoing unit List.mem_cons_self] at ends
    cases ends
  | case3 text reference notEnds ih =>
    have later : ∀ unit ∈ text.drop reference.2, unit ∈ 0x26 :: text := fun unit member =>
      .tail _ (List.mem_of_mem_drop member)
    have more := ih (fun unit member => going unit (later unit member))
      (fun unit member => otherGoing unit (later unit member))
    have reads : Reference.read (text ++ next) = reference :=
      Reference.read_append (foresees.stops ended) text
    have within : reference.2 ≤ text.length := Reference.read_count_le text
    rw [List.cons_append, read, going _ List.mem_cons_self, read.eq_2 other,
      otherGoing _ List.mem_cons_self]
    simp only [Bool.false_eq_true, if_false, if_true, reads, List.drop_append_of_le_length within,
      more]
    rfl
  | case4 unit text notEnds notAmpersand ih =>
    have more := ih (fun next member => going next (.tail _ member))
      (fun next member => otherGoing next (.tail _ member))
    rw [List.cons_append, read_literal (going unit List.mem_cons_self _) notAmpersand, more,
      read_literal (otherGoing unit List.mem_cons_self _) notAmpersand]

theorem read_ne_nil {ends : Text → Bool} {unit : CodeUnit} {rest : Text}
    (going : ends (unit :: rest) = false) : (read ends (unit :: rest)).1 ≠ [] := by
  by_cases ampersand : unit = 0x26
  · subst ampersand
    rw [read, if_neg (by rw [going]; decide), if_pos rfl]
    simp [Reference.read_ne_nil]
  · rw [read_literal going ampersand]
    exact List.cons_ne_nil _ _

/-! ## The three kinds of data -/

theorem endsText_opening (unit : CodeUnit) (rest : Text) :
    endsText (0x3C :: unit :: rest) =
      (unit == 0x2F || unit == 0x21 || CodeUnit.startsTagName unit) := by
  unfold endsText Markup.Construct.ofText
  cases letter : CodeUnit.startsTagName unit <;> split <;> simp_all

theorem endsText_begins {text : Text} (ends : endsText text = true) :
    ∃ unit rest, text = 0x3C :: unit :: rest := by
  cases text with
  | nil => cases ends
  | cons unit rest =>
    by_cases opening : unit = 0x3C
    · subst opening
      cases rest with
      | nil => cases ends
      | cons next more => exact ⟨next, more, rfl⟩
    · rw [endsText_of_ne opening] at ends
      cases ends

theorem foresees_endsText : Foresees endsText where
  two_units unit next rest other := by
    by_cases opening : unit = 0x3C
    · rw [opening, endsText_opening, endsText_opening]
    · rw [endsText_of_ne opening, endsText_of_ne opening]
  lookedAt unit rest lookedAt := by
    apply endsText_of_ne
    rintro rfl
    cases lookedAt

theorem foresees_endsQuoted {quote : CodeUnit} (quotes : isQuote quote = true) :
    Foresees (endsQuoted quote) where
  two_units _ _ _ _ := rfl
  lookedAt unit rest lookedAt := by
    show (unit == quote) = false
    rw [beq_eq_false_iff_ne]
    rintro rfl
    rcases isQuote_cases quotes with rfl | rfl <;> cases lookedAt

theorem endsBare_slash (next : CodeUnit) (rest : Text) :
    endsBare (0x2F :: next :: rest) = (next == 0x3E) := by
  by_cases close : next = 0x3E
  · subst close
    rfl
  · have shut : (next == 0x3E) = false := beq_eq_false_iff_ne.mpr close
    rw [shut]
    unfold endsBare
    split
    · rename_i same
      cases same
    · rename_i same
      cases same
      exact absurd rfl close
    · rename_i same
      cases same
      rfl
    · rfl

theorem foresees_endsBare : Foresees endsBare where
  two_units unit next rest other := by
    by_cases close : unit = 0x3E
    · subst close
      rfl
    by_cases slash : unit = 0x2F
    · rw [slash, endsBare_slash, endsBare_slash]
    · rw [endsBare_of_ne close slash, endsBare_of_ne close slash]
  lookedAt unit rest lookedAt := by
    rw [endsBare_of_ne ?_ ?_ rest, ← Bool.not_eq_true]
    · intro space
      rcases CodeUnit.isWhitespace_cases space with rfl | rfl | rfl | rfl | rfl <;> cases lookedAt
    · rintro rfl
      cases lookedAt
    · rintro rfl
      cases lookedAt

theorem continues_endsText {rest other : Text} (ended : Ended endsText other) :
    Continues endsText rest other := by
  intro unit going
  by_cases opening : unit = 0x3C
  · subst opening
    rcases ended with rfl | ends
    · rfl
    · obtain ⟨next, more, rfl⟩ := endsText_begins ends
      rfl
  · exact endsText_of_ne opening other

theorem continues_endsQuoted (quote : CodeUnit) (rest other : Text) :
    Continues (endsQuoted quote) rest other := fun _ going => going

theorem continues_endsBare {rest other : Text}
    (close : other.head? = some 0x3E → rest.head? = some 0x3E) : Continues endsBare rest other := by
  intro unit going
  by_cases ends : unit = 0x3E
  · subst ends
    cases going
  by_cases slash : unit = 0x2F
  · subst slash
    cases other with
    | nil => rfl
    | cons next more =>
      rw [endsBare_slash, beq_eq_false_iff_ne]
      rintro rfl
      obtain ⟨later, rfl⟩ := List.head?_eq_some_iff.mp (close rfl)
      cases going
  · rw [endsBare_of_ne ends slash] at going ⊢
    exact going

end CharacterData
end HtmlFragments
