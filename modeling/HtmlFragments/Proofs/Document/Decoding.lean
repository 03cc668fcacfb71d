import HtmlFragments.Proofs.Markup.Descent
import HtmlFragments.Proofs.Markup.ContentReading

/-! # Decoding references

A text is decoded from left to right. A `&` and what makes it a reference are replaced by what the
reference stands for, and everything else is left as written. The reader decodes with more names
than it has, as it finds the members of every table of names too. Main result: a source without `<`
is read as one text, which is decoded with those names. It is decoded with the known names alone
exactly if no member stands in it as a reference. -/
set_option autoImplicit false

namespace HtmlFragments

namespace Markup

open Grammar

/-- A source and what it is decoded to, given the names that stand for something. -/
inductive Decodes (table : List (Text × Text)) : Text → Text → Prop where
  | nil : Decodes table [] []
  | reference {stands written rest value : Text} :
      ReferenceBefore table rest stands written → Decodes table rest value →
      Decodes table (0x26 :: (written ++ rest)) (stands ++ value)
  | literal {unit : CodeUnit} {rest value : Text} :
      (unit = 0x26 → ∀ stands written more, ReferenceBefore table more stands written →
        rest ≠ written ++ more) →
      Decodes table rest value → Decodes table (unit :: rest) (unit :: value)

/-- The name of a member stands in a source as if it were a reference. -/
def HoldsMember (source : Text) : Prop :=
  ∃ member ∈ NameTable.members, 0x26 :: (member.1 ++ [0x3B]) <:+: source

instance (source : Text) : Decidable (HoldsMember source) :=
  inferInstanceAs (Decidable (∃ member ∈ NameTable.members, _))

def foundNames : List (Text × Text) := Reference.names ++ NameTable.members

/-! ## References -/

section

variable {table : List (Text × Text)}

theorem Grammar.ReferenceBefore.mono {other : List (Text × Text)} {stands written rest : Text}
    (within : table ⊆ other) (reference : ReferenceBefore table rest stands written) :
    ReferenceBefore other rest stands written := by
  cases reference with
  | named entry => exact .named (within entry)
  | decimal nonempty inside ends => exact .decimal nonempty inside ends
  | hexadecimal marked nonempty inside ends => exact .hexadecimal marked nonempty inside ends

/-- Only one reference can stand before a place. -/
theorem Grammar.ReferenceBefore.unique {stands written rest otherStands otherWritten other : Text}
    (within : table ⊆ foundNames) (reference : ReferenceBefore table rest stands written)
    (otherReference : ReferenceBefore table other otherStands otherWritten)
    (same : written ++ rest = otherWritten ++ other) :
    stands = otherStands ∧ written = otherWritten ∧ rest = other := by
  have reads := Reference.read_of_referenceBefore (reference.mono within)
  have otherReads := Reference.read_of_referenceBefore (otherReference.mono within)
  rw [same, otherReads] at reads
  obtain ⟨sameStands, sameLength⟩ := Prod.mk.inj reads
  exact ⟨sameStands.symm, List.append_inj same sameLength.symm⟩

end

theorem exists_digitsEnd {isDigit : CodeUnit → Bool} {digit : CodeUnit}
    (first : isDigit digit = true) (text : Text) :
    ∃ digits ending rest, digit :: text = digits ++ (ending ++ rest) ∧ digits ≠ [] ∧
      Text.AllOf isDigit digits ∧ DigitsEnd isDigit rest ending := by
  obtain ⟨others, tail, rfl, inside, stops⟩ := Text.exists_run isDigit text
  have all : Text.AllOf isDigit (digit :: others) := (Text.allOf_cons _ _ _).mpr ⟨first, inside⟩
  by_cases semicolon : tail.head? = some 0x3B
  · obtain ⟨rest, rfl⟩ := List.head?_eq_some_iff.mp semicolon
    exact ⟨digit :: others, [0x3B], rest, rfl, List.cons_ne_nil _ _, all, .semicolon⟩
  · exact ⟨digit :: others, [], tail, rfl, List.cons_ne_nil _ _, all, .nothing stops semicolon⟩

theorem exists_reference_of_starts {text : Text} (starts : StartsReference text) :
    ∃ stands written rest, text = written ++ rest ∧
      ReferenceBefore Reference.names rest stands written := by
  cases starts with
  | @named name stands rest entry =>
    exact ⟨stands, name ++ [0x3B], rest, by simp, .named entry⟩
  | @decimal digit rest first =>
    obtain ⟨digits, ending, more, whole, nonempty, inside, ends⟩ := exists_digitsEnd first rest
    exact ⟨_, 0x23 :: (digits ++ ending), more, by simp [whole], .decimal nonempty inside ends⟩
  | @hexadecimal mark digit rest marked first =>
    obtain ⟨digits, ending, more, whole, nonempty, inside, ends⟩ := exists_digitsEnd first rest
    exact ⟨_, 0x23 :: mark :: (digits ++ ending), more, by simp [whole],
      .hexadecimal marked nonempty inside ends⟩

theorem startsNothing_of_literal {text : Text}
    (literal : ∀ stands written rest, ReferenceBefore foundNames rest stands written →
      text ≠ written ++ rest) : StartsNothing text := by
  constructor
  · intro starts
    obtain ⟨stands, written, rest, whole, reference⟩ := exists_reference_of_starts starts
    exact literal stands written rest (reference.mono (List.subset_append_left _ _)) whole
  · rintro ⟨⟨name, stands⟩, member, rest, rfl⟩
    exact literal stands (name ++ [0x3B]) rest (.named (List.mem_append_right _ member)) (by simp)

/-! ## What a source is decoded to -/

section

variable {table : List (Text × Text)} {source value : Text}

/-- What makes a reference is taken whole, so that every source can be decoded. -/
theorem exists_decodes (table : List (Text × Text)) (source : Text) :
    ∃ value, Decodes table source value := by
  induction size : source.length using Nat.strongRecOn generalizing source with
  | ind length ih =>
    cases source with
    | nil => exact ⟨[], .nil⟩
    | cons unit rest =>
      by_cases reference : unit = 0x26 ∧ ∃ stands written more,
          ReferenceBefore table more stands written ∧ rest = written ++ more
      · obtain ⟨rfl, stands, written, more, reference, rfl⟩ := reference
        have shorter : more.length < length := by
          rw [List.length_cons, List.length_append] at size
          omega
        obtain ⟨value, decodes⟩ := ih more.length shorter more rfl
        exact ⟨stands ++ value, .reference reference decodes⟩
      · have shorter : rest.length < length := by
          rw [List.length_cons] at size
          omega
        obtain ⟨value, decodes⟩ := ih rest.length shorter rest rfl
        refine ⟨unit :: value, .literal ?_ decodes⟩
        intro isAmpersand stands written more stood whole
        exact reference ⟨isAmpersand, stands, written, more, stood, whole⟩

theorem Decodes.unique (within : table ⊆ foundNames) (decodes : Decodes table source value)
    {other : Text} (otherDecodes : Decodes table source other) : value = other := by
  induction decodes generalizing other with
  | nil =>
    cases otherDecodes
    rfl
  | @reference stands written rest value reference later ih =>
    generalize whole : 0x26 :: (written ++ rest) = source at otherDecodes
    cases otherDecodes with
    | nil => cases whole
    | reference otherReference otherLater =>
      obtain ⟨rfl, rfl, rfl⟩ := reference.unique within otherReference (List.cons.inj whole).2
      rw [ih otherLater]
    | literal literal _ =>
      obtain ⟨rfl, rfl⟩ := List.cons.inj whole
      exact absurd rfl (literal rfl stands written rest reference)
  | @literal unit rest value literal later ih =>
    generalize whole : unit :: rest = source at otherDecodes
    cases otherDecodes with
    | nil => cases whole
    | reference otherReference _ =>
      obtain ⟨rfl, rfl⟩ := List.cons.inj whole
      exact absurd rfl (literal rfl _ _ _ otherReference)
    | literal _ otherLater =>
      obtain ⟨rfl, rfl⟩ := List.cons.inj whole
      rw [ih otherLater]

/-- The reader decodes with all names that it finds. -/
theorem read_of_decodes (noOpening : 0x3C ∉ source) (decodes : Decodes foundNames source value) :
    CharacterData.read endsText source = (value, source.length) := by
  induction decodes with
  | nil => exact CharacterData.read_ended (.inl rfl)
  | @reference stands written rest value reference later ih =>
    have noLater : 0x3C ∉ rest := fun member =>
      noOpening (.tail _ (List.mem_append_right _ member))
    have count : 1 + written.length + rest.length = written.length + rest.length + 1 := by omega
    rw [CharacterData.read_reference CharacterData.passes_endsText
      (Reference.read_of_referenceBefore reference), ih noLater, List.length_cons,
      List.length_append, count]
  | @literal unit rest value literal later ih =>
    obtain ⟨notOpening, noLater⟩ := not_or.mp (mt List.mem_cons.mpr noOpening)
    by_cases isAmpersand : unit = 0x26
    · obtain ⟨noReference, noMember⟩ := startsNothing_of_literal (literal isAmpersand)
      rw [isAmpersand, CharacterData.read_ampersand CharacterData.passes_endsText noReference
        noMember, ih noLater, List.length_cons, Nat.add_comm]
    · rw [CharacterData.read_literal (CharacterData.endsText_of_ne (Ne.symm notOpening) rest)
        isAmpersand, ih noLater, List.length_cons, Nat.add_comm]

end

/-! ## Members among the names -/

theorem not_mem_digitsEnd {isDigit : CodeUnit → Bool} {digits ending rest : Text}
    (outside : isDigit 0x26 = false) (inside : Text.AllOf isDigit digits)
    (ends : DigitsEnd isDigit rest ending) : 0x26 ∉ digits ++ ending := by
  intro member
  rcases List.mem_append.mp member with digit | last
  · exact absurd (inside _ digit) (by rw [outside]; decide)
  · cases ends with
    | semicolon => exact absurd last (by decide)
    | nothing _ _ => exact absurd last List.not_mem_nil

/-- No other reference begins inside a reference. -/
theorem not_mem_of_reference {stands written rest : Text}
    (reference : ReferenceBefore Reference.names rest stands written) : 0x26 ∉ written := by
  cases reference with
  | @named name stands entry =>
    obtain ⟨_, _, inside, _⟩ := Reference.names_known _ entry
    intro member
    rcases List.mem_append.mp member with unit | last
    · exact absurd (List.all_eq_true.mp inside _ unit) (by decide)
    · exact absurd last (by decide)
  | decimal _ inside ends =>
    have absent := not_mem_digitsEnd (by decide) inside ends
    simp [absent]
  | hexadecimal marked _ inside ends =>
    have absent := not_mem_digitsEnd (by decide) inside ends
    rcases marked with rfl | rfl <;> simp [absent]

theorem names_ne_members : ∀ entry ∈ Reference.names, ∀ member ∈ NameTable.members,
    entry.2 ≠ member.2 := by
  decide +kernel

theorem not_startsMember_of_reference {stands written rest : Text}
    (reference : ReferenceBefore Reference.names rest stands written) :
    ¬StartsMember (written ++ rest) := by
  rintro ⟨⟨name, text⟩, member, other, same⟩
  have memberReference : ReferenceBefore foundNames other text (name ++ [0x3B]) :=
    .named (List.mem_append_right _ member)
  obtain ⟨sameStands, sameWritten, _⟩ :=
    (reference.mono (List.subset_append_left _ _)).unique (List.Subset.refl _) memberReference
      (by simpa using same)
  have notNumeric : (name ++ [0x3B]).head? ≠ some 0x23 := by
    obtain ⟨notNumeric, nonempty, _⟩ := Reference.members_known _ member
    obtain ⟨first, more, rfl⟩ := List.exists_cons_of_ne_nil nonempty
    exact notNumeric
  rw [← sameWritten] at notNumeric
  cases reference with
  | named entry => exact names_ne_members _ entry _ member sameStands
  | decimal _ _ _ => exact notNumeric rfl
  | hexadecimal _ _ _ _ => exact notNumeric rfl

theorem decodes_foundNames {source value : Text} (decodes : Decodes Reference.names source value)
    (free : ¬HoldsMember source) : Decodes foundNames source value := by
  induction decodes with
  | nil => exact .nil
  | @reference stands written rest value reference _ ih =>
    have freeLater : ¬HoldsMember rest := fun ⟨member, isMember, holds⟩ =>
      free ⟨member, isMember, holds.trans (List.suffix_append (0x26 :: written) rest).isInfix⟩
    exact .reference (reference.mono (List.subset_append_left _ _)) (ih freeLater)
  | @literal unit rest value literal _ ih =>
    have freeLater : ¬HoldsMember rest := fun ⟨member, isMember, holds⟩ =>
      free ⟨member, isMember, List.infix_cons holds⟩
    refine .literal (fun isAmpersand stands written more reference => ?_) (ih freeLater)
    cases reference with
    | @named name stands entry =>
      rintro rfl
      rcases List.mem_append.mp entry with entry | member
      · exact literal isAmpersand _ _ _ (.named entry) rfl
      · exact free ⟨_, member, [], more, by simp [isAmpersand]⟩
    | decimal nonempty inside ends =>
      exact literal isAmpersand _ _ _ (.decimal nonempty inside ends)
    | hexadecimal marked nonempty inside ends =>
      exact literal isAmpersand _ _ _ (.hexadecimal marked nonempty inside ends)

/-- A reference that is found is one by the rules or begins with something else than its `&`. -/
theorem reference_of_foundNames {stands written rest : Text}
    (reference : ReferenceBefore foundNames rest stands written) :
    ReferenceBefore Reference.names rest stands written ∨
      ∀ other value, stands ++ other ≠ 0x26 :: value := by
  cases reference with
  | named entry =>
    rcases List.mem_append.mp entry with entry | member
    · exact .inl (.named entry)
    · obtain ⟨_, _, _, _, filled, notAmpersand⟩ := Reference.members_known _ member
      obtain ⟨first, more, rfl⟩ := List.exists_cons_of_ne_nil filled
      refine .inr fun other value same => notAmpersand ?_
      rw [(List.cons.inj same).1]
      rfl
  | decimal nonempty inside ends => exact .inl (.decimal nonempty inside ends)
  | hexadecimal marked nonempty inside ends =>
    exact .inl (.hexadecimal marked nonempty inside ends)

/-- Where a member stands in a source, its value is found in place of its `&`. -/
theorem not_holdsMember_of_decodes {source value : Text}
    (decodes : Decodes Reference.names source value) (found : Decodes foundNames source value) :
    ¬HoldsMember source := by
  rintro ⟨⟨name, text⟩, member, holds⟩
  induction decodes with
  | nil => exact absurd (List.infix_nil.mp holds) (List.cons_ne_nil _ _)
  | @reference stands written rest value reference later ih =>
    rcases List.infix_cons_iff.mp holds with begins | holds
    · obtain ⟨more, whole⟩ := (List.cons_prefix_cons.mp begins).2
      exact not_startsMember_of_reference reference
        ⟨_, member, more, by rw [← whole, List.append_assoc]; rfl⟩
    · obtain ⟨read, foundLater⟩ := exists_decodes foundNames rest
      have same := found.unique (List.Subset.refl _)
        (.reference (reference.mono (List.subset_append_left _ _)) foundLater)
      rw [← List.append_cancel_left same] at foundLater
      exact ih foundLater (Text.infix_of_not_mem (not_mem_of_reference reference) holds)
  | @literal unit rest value literal later ih =>
    generalize whole : unit :: rest = source at found
    generalize shape : unit :: value = read at found
    cases found with
    | nil => cases whole
    | reference otherReference _ =>
      obtain ⟨rfl, rfl⟩ := List.cons.inj whole
      rcases reference_of_foundNames otherReference with reference | differs
      · exact literal rfl _ _ _ reference rfl
      · exact differs _ _ shape.symm
    | literal otherLiteral foundLater =>
      obtain ⟨rfl, rfl⟩ := List.cons.inj whole
      obtain ⟨_, rfl⟩ := List.cons.inj shape
      rcases List.infix_cons_iff.mp holds with begins | holds
      · obtain ⟨isAmpersand, more, whole⟩ := List.cons_prefix_cons.mp begins
        exact otherLiteral isAmpersand.symm text (name ++ [0x3B]) more
          (.named (List.mem_append_right _ member)) whole.symm
      · exact ih foundLater holds

end Markup

/-! ## The document -/

namespace Document

open Markup Markup.Grammar

theorem parse_of_decodes {source value : Text} (filled : source ≠ []) (noOpening : 0x3C ∉ source)
    (unmarked : source.head? ≠ some 0xFEFF) (decodes : Decodes foundNames source value) :
    parse source = .ok ⟨[.text value]⟩ := by
  have continues : endsText (source ++ []) = false := by
    obtain ⟨first, more, rfl⟩ := List.exists_cons_of_ne_nil filled
    exact CharacterData.endsText_of_ne (fun same => noOpening (same ▸ List.mem_cons_self)) _
  have reads : CharacterData.read endsText (source ++ []) = (value, source.length) := by
    rw [List.append_nil]
    exact read_of_decodes noOpening decodes
  have steps := Progress.step_of_read source.lowerCase [] Progress.start continues reads
  rw [List.append_nil] at steps
  rw [parse_eq_ok, readNodes, contentStart_unmarked unmarked, Progress.run_of_step filled steps,
    Progress.run_of_end _ rfl]
  rfl

/-- Main result: a source without `<` is one text. What it is decoded to is fixed by the known
names, the text is decoded with the members of every table as well, and the two agree exactly if no
member stands in the source as a reference. -/
theorem parse_decoded {source : Text} (filled : source ≠ []) (noOpening : 0x3C ∉ source)
    (unmarked : source.head? ≠ some 0xFEFF) :
    (∃ value, Decodes Reference.names source value ∧
        (∀ other, Decodes Reference.names source other → other = value) ∧
        (parse source = .ok ⟨[.text value]⟩ ↔ ¬HoldsMember source)) ∧
      ∃ value, Decodes foundNames source value ∧ parse source = .ok ⟨[.text value]⟩ := by
  obtain ⟨value, decodes⟩ := exists_decodes Reference.names source
  obtain ⟨read, found⟩ := exists_decodes foundNames source
  have parsed := parse_of_decodes filled noOpening unmarked found
  refine ⟨⟨value, decodes, ?_, ?_⟩, read, found, parsed⟩
  · intro other otherDecodes
    exact otherDecodes.unique (List.subset_append_left _ _) decodes
  · constructor
    · intro success
      rw [parsed] at success
      cases success
      exact not_holdsMember_of_decodes decodes found
    · intro free
      have same := found.unique (List.Subset.refl _) (decodes_foundNames decodes free)
      rw [parsed, same]

/-- References with and without a semicolon, a surrogate, and names that are not known. -/
theorem parse_decoded_characters :
    let source := Text.ofString "&amp;lt; &#x41&#65;&b; &#xD800 &lt"
    let value := Text.ofString "&lt; AA&b; \uFFFD &lt"
    (source ≠ [] ∧ 0x3C ∉ source ∧ source.head? ≠ some 0xFEFF) ∧
      Decodes Reference.names source value ∧ parse source = .ok ⟨[.text value]⟩ := by
  intro source value
  have filled : source ≠ [] := by decide
  have noOpening : 0x3C ∉ source := by decide
  have unmarked : source.head? ≠ some 0xFEFF := by decide
  have parsed : parse source = .ok ⟨[.text value]⟩ := by decide +kernel
  have free : ¬HoldsMember source := by decide +kernel
  obtain ⟨⟨decoded, decodes, _, agrees⟩, _⟩ := parse_decoded filled noOpening unmarked
  have same : decoded = value := by
    have success := agrees.mpr free
    rw [parsed] at success
    cases success
    rfl
  exact ⟨⟨filled, noOpening, unmarked⟩, same ▸ decodes, parsed⟩

/-- A reference by the name of a member is not left as written. -/
theorem not_forall_parse_decoded :
    ¬∀ source value : Text, source ≠ [] → 0x3C ∉ source → source.head? ≠ some 0xFEFF →
      Decodes Reference.names source value → parse source = .ok ⟨[.text value]⟩ := by
  intro parses
  have filled : Text.ofString "&constructor;" ≠ [] := by decide
  have noOpening : 0x3C ∉ Text.ofString "&constructor;" := by decide
  have unmarked : (Text.ofString "&constructor;").head? ≠ some 0xFEFF := by decide
  have holds : HoldsMember (Text.ofString "&constructor;") := by decide +kernel
  obtain ⟨value, decodes⟩ := exists_decodes Reference.names (Text.ofString "&constructor;")
  obtain ⟨read, found⟩ := exists_decodes foundNames (Text.ofString "&constructor;")
  have success := parses _ value filled noOpening unmarked decodes
  rw [parse_of_decodes filled noOpening unmarked found] at success
  cases success
  exact not_holdsMember_of_decodes decodes found holds

end Document
end HtmlFragments
