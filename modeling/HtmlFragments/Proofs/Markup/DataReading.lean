import HtmlFragments.Proofs.Markup.ReferenceReading

/-! # Reading character data

The text of a value is read as that value, provided that a `&` stands for itself only where the
reader knows no reference. It is read as some other value as soon as one stands before the name of
a member of the table of names. -/
set_option autoImplicit false

namespace HtmlFragments

namespace CharacterData

open Markup (endsText)
open Markup.Grammar

/-- The units that can be read together with a `&` never end the data. -/
structure Passes (ends : Text → Bool) : Prop where
  ampersand : ∀ rest, ends (0x26 :: rest) = false
  word : ∀ unit rest, Reference.isReferenceUnit unit = true → ends (unit :: rest) = false

def Ended (ends : Text → Bool) (next : Text) : Prop := next = [] ∨ ends next = true

theorem endsText_of_ne {unit : CodeUnit} (notOpening : unit ≠ 0x3C) (rest : Text) :
    endsText (unit :: rest) = false := by
  unfold endsText Markup.Construct.ofText
  split <;> first | rfl | (rename_i same; cases same; exact absurd rfl notOpening)

theorem passes_endsText : Passes endsText where
  ampersand rest := endsText_of_ne (by decide) rest
  word unit rest isUnit := by
    refine endsText_of_ne ?_ rest
    rintro rfl
    exact absurd isUnit (by decide)

theorem isQuote_cases {quote : CodeUnit} (quotes : isQuote quote = true) :
    quote = 0x22 ∨ quote = 0x27 := by
  simpa [isQuote] using quotes

theorem passes_endsQuoted {quote : CodeUnit} (quotes : isQuote quote = true) :
    Passes (endsQuoted quote) where
  ampersand rest := by
    rcases isQuote_cases quotes with rfl | rfl <;> rfl
  word unit rest isUnit := by
    show (unit == quote) = false
    rw [beq_eq_false_iff_ne]
    intro same
    subst same
    rcases isQuote_cases quotes with rfl | rfl <;> exact absurd isUnit (by decide)

theorem endsBare_of_ne {unit : CodeUnit} (notEnd : unit ≠ 0x3E) (notSlash : unit ≠ 0x2F)
    (rest : Text) : endsBare (unit :: rest) = CodeUnit.isWhitespace unit := by
  unfold endsBare
  split
  · rename_i same
    cases same
    exact absurd rfl notEnd
  · rename_i same
    cases same
    exact absurd rfl notSlash
  · rename_i same
    cases same
    rfl
  · rename_i same
    cases same

theorem passes_endsBare : Passes endsBare where
  ampersand rest := endsBare_of_ne (by decide) (by decide) rest
  word unit rest isUnit := by
    rw [endsBare_of_ne ?_ ?_ rest, ← Bool.not_eq_true]
    · intro space
      rcases CodeUnit.isWhitespace_cases space with rfl | rfl | rfl | rfl | rfl <;>
        exact absurd isUnit (by decide)
    · rintro rfl
      exact absurd isUnit (by decide)
    · rintro rfl
      exact absurd isUnit (by decide)

/-! ## One piece of data -/

theorem read_ended {ends : Text → Bool} {next : Text} (ended : Ended ends next) :
    read ends next = ([], 0) := by
  cases next with
  | nil => rw [read]
  | cons unit rest =>
    rcases ended with nothing | ended
    · cases nothing
    · rw [read, if_pos ended]

theorem read_literal {ends : Text → Bool} {unit : CodeUnit} {rest : Text}
    (continues : ends (unit :: rest) = false) (notAmpersand : unit ≠ 0x26) :
    read ends (unit :: rest) = (unit :: (read ends rest).1, 1 + (read ends rest).2) := by
  rw [read, if_neg (by rw [continues]; decide), if_neg notAmpersand]

theorem read_reference {ends : Text → Bool} (passes : Passes ends) {written value rest : Text}
    (reads : Reference.read (written ++ rest) = (value, written.length)) :
    read ends (0x26 :: (written ++ rest)) =
      (value ++ (read ends rest).1, 1 + written.length + (read ends rest).2) := by
  rw [read, if_neg (by rw [passes.ampersand]; decide), if_pos rfl]
  simp only [reads, List.drop_left]

theorem read_word {ends : Text → Bool} (passes : Passes ends) {word : Text} (rest : Text)
    (inside : Text.AllOf Reference.isReferenceUnit word) :
    read ends (word ++ rest) = (word ++ (read ends rest).1, word.length + (read ends rest).2) := by
  induction word with
  | nil => simp
  | cons unit more ih =>
    obtain ⟨isUnit, others⟩ := List.forall_mem_cons.mp inside
    have notAmpersand : unit ≠ 0x26 := by
      rintro rfl
      exact absurd isUnit (by decide)
    rw [List.cons_append, read_literal (passes.word unit _ isUnit) notAmpersand, ih others]
    simp only [List.cons_append, List.length_cons, Prod.mk.injEq, true_and]
    omega

/-- A `&` that starts nothing known is read as if it were any other unit. -/
theorem read_ampersand {ends : Text → Bool} (passes : Passes ends) {rest : Text}
    (noReference : ¬StartsReference rest) (noMember : ¬StartsMember rest) :
    read ends (0x26 :: rest) = (0x26 :: (read ends rest).1, 1 + (read ends rest).2) := by
  obtain ⟨word, more, rfl, inside, reads⟩ := Reference.readsLiteral noReference noMember
  rw [read_reference passes reads, read_word passes more inside]
  simp only [List.cons_append, Nat.add_assoc]

/-- Before the name of a member a `&` is lost. -/
theorem read_ampersand_member {ends : Text → Bool} (passes : Passes ends) {rest value : Text}
    (startsMember : StartsMember rest) : (read ends (0x26 :: rest)).1 ≠ 0x26 :: value := by
  obtain ⟨unit, more, shows, notAmpersand⟩ := Reference.read_of_startsMember startsMember
  rw [read, if_neg (by rw [passes.ampersand]; decide), if_pos rfl]
  simp only [shows, List.cons_append]
  intro same
  exact notAmpersand (List.cons.inj same).1

/-! ## The text of a value -/

theorem read_of_data {ends : Text → Bool}
    (passes : Passes ends) {next value text : Text} (ended : Ended ends next)
    (data : Data StartsNothing ends next value text) :
    read ends (text ++ next) = (value, text.length) := by
  induction data with
  | nil => exact read_ended ended
  | @literal unit value text continues ampersand later ih =>
    by_cases isAmpersand : unit = 0x26
    · obtain ⟨noReference, noMember⟩ := ampersand isAmpersand
      rw [isAmpersand, List.cons_append, read_ampersand passes noReference noMember, ih,
        List.length_cons, Nat.add_comm]
    · rw [List.cons_append, read_literal continues isAmpersand, ih, List.length_cons, Nat.add_comm]
  | @reference stands written value text reference later ih =>
    rw [List.cons_append, List.append_assoc,
      read_reference passes (Reference.read_of_referenceText reference _), ih, List.length_cons,
      List.length_append, Nat.add_assoc, Nat.add_comm]

/-- Data that is read as the value it spells has no `&` before the name of a member. -/
theorem data_of_read {ends : Text → Bool}
    (passes : Passes ends) {next value text : Text}
    (data : Data StartsNoReference ends next value text)
    (reads : (read ends (text ++ next)).1 = value) :
    Data StartsNothing ends next value text := by
  induction data with
  | nil => exact .nil
  | @literal unit value text continues ampersand later ih =>
    by_cases isAmpersand : unit = 0x26
    · subst isAmpersand
      have noReference : ¬StartsReference (text ++ next) := ampersand rfl
      by_cases startsMember : StartsMember (text ++ next)
      · exact absurd reads (read_ampersand_member passes startsMember)
      · rw [List.cons_append, read_ampersand passes noReference startsMember] at reads
        exact .literal continues (fun _ => ⟨noReference, startsMember⟩)
          (ih (List.cons.inj reads).2)
    · rw [List.cons_append, read_literal continues isAmpersand] at reads
      exact .literal continues (fun same => absurd same isAmpersand) (ih (List.cons.inj reads).2)
  | @reference stands written value text reference later ih =>
    rw [List.cons_append, List.append_assoc,
      read_reference passes (Reference.read_of_referenceText reference _)] at reads
    exact .reference reference (ih (List.append_cancel_left reads))

end CharacterData
end HtmlFragments
