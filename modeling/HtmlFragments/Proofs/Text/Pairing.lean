import HtmlFragments.Document.Basic
import HtmlFragments.Proofs.Text.Span

/-! # Surrogates in pairs

A text is well formed when every surrogate in it belongs to a pair. A cut of such a text leaves two
of the kind unless it goes through a pair, which shows in the unit after the cut. -/
set_option autoImplicit false

namespace HtmlFragments

namespace CodeUnit

def isSurrogate (unit : CodeUnit) : Bool := isHighSurrogate unit || isLowSurrogate unit

theorem isSurrogate_eq_false_iff {unit : CodeUnit} :
    isSurrogate unit = false ↔ isHighSurrogate unit = false ∧ isLowSurrogate unit = false :=
  Bool.or_eq_false_iff

theorem isSurrogate_iff {unit : CodeUnit} :
    isSurrogate unit = true ↔ 0xD800 ≤ unit.toNat ∧ unit.toNat ≤ 0xDFFF := by
  simp only [isSurrogate, isHighSurrogate, isLowSurrogate, Bool.or_eq_true, Bool.and_eq_true,
    decide_eq_true_eq, UInt16.le_iff_toNat_le, UInt16.reduceToNat]
  omega

end CodeUnit

namespace Text

open CodeUnit (isSurrogate isHighSurrogate isLowSurrogate)

/-- Every surrogate belongs to a pair, high before low. -/
inductive Paired : Text → Prop where
  | nil : Paired []
  | single {unit : CodeUnit} {rest : Text} :
      isSurrogate unit = false → Paired rest → Paired (unit :: rest)
  | pair {high low : CodeUnit} {rest : Text} :
      isHighSurrogate high = true → isLowSurrogate low = true → Paired rest →
      Paired (high :: low :: rest)

theorem isWellFormed_iff {text : Text} : text.isWellFormed = true ↔ Paired text := by
  constructor
  · intro wellFormed
    fun_induction isWellFormed text with
    | case1 => exact .nil
    | case2 unit =>
      simp only [Bool.and_eq_true, Bool.not_eq_true'] at wellFormed
      exact .single (CodeUnit.isSurrogate_eq_false_iff.mpr wellFormed) .nil
    | case3 high low rest isHigh ih =>
      obtain ⟨isLow, others⟩ := Bool.and_eq_true_iff.mp wellFormed
      exact .pair isHigh isLow (ih others)
    | case4 unit next rest notHigh ih =>
      obtain ⟨notLow, others⟩ := Bool.and_eq_true_iff.mp wellFormed
      simp only [Bool.not_eq_true, Bool.not_eq_true'] at notHigh notLow
      exact .single (CodeUnit.isSurrogate_eq_false_iff.mpr ⟨notHigh, notLow⟩) (ih others)
  · intro paired
    induction paired with
    | nil => rfl
    | @single unit rest outside later ih =>
      obtain ⟨notHigh, notLow⟩ := CodeUnit.isSurrogate_eq_false_iff.mp outside
      cases rest <;> simp_all [isWellFormed]
    | pair isHigh isLow later ih => simp [isWellFormed, isHigh, isLow, ih]

theorem Paired.append {text other : Text} (paired : Paired text) (others : Paired other) :
    Paired (text ++ other) := by
  induction paired with
  | nil => exact others
  | single outside _ ih => exact .single outside ih
  | pair isHigh isLow _ ih => exact .pair isHigh isLow ih

theorem paired_of_allOf {text : Text}
    (outside : AllOf (fun unit => !isSurrogate unit) text) : Paired text := by
  induction text with
  | nil => exact .nil
  | cons unit rest ih =>
    obtain ⟨first, others⟩ := (allOf_cons _ _ _).mp outside
    exact .single (by simpa using first) (ih others)

theorem Paired.after_single {unit : CodeUnit} {rest : Text} (paired : Paired (unit :: rest))
    (outside : isSurrogate unit = false) : Paired rest := by
  cases paired with
  | single _ later => exact later
  | pair isHigh _ _ =>
    rw [(CodeUnit.isSurrogate_eq_false_iff.mp outside).1] at isHigh
    cases isHigh

theorem Paired.after_pair {high low : CodeUnit} {rest : Text}
    (paired : Paired (high :: low :: rest)) (isHigh : isHighSurrogate high = true) :
    Paired rest := by
  cases paired with
  | single outside _ =>
    rw [(CodeUnit.isSurrogate_eq_false_iff.mp outside).1] at isHigh
    cases isHigh
  | pair _ _ later => exact later

/-- After a paired text only a paired text makes the whole paired. -/
theorem Paired.of_append {text other : Text} (paired : Paired text)
    (whole : Paired (text ++ other)) : Paired other := by
  induction paired with
  | nil => exact whole
  | single outside _ ih => exact ih (whole.after_single outside)
  | pair isHigh _ _ ih => exact ih (whole.after_pair isHigh)

/-- A cut before a unit that is no low surrogate goes through no pair. -/
theorem Paired.cut {text other : Text} (whole : Paired (text ++ other))
    (stops : Stops isLowSurrogate other) : Paired text ∧ Paired other := by
  generalize joined : text ++ other = source at whole
  induction whole generalizing text with
  | nil =>
    obtain ⟨rfl, rfl⟩ := List.append_eq_nil_iff.mp joined
    exact ⟨.nil, .nil⟩
  | @single unit rest outside later ih =>
    cases text with
    | nil =>
      cases joined
      exact ⟨.nil, .single outside later⟩
    | cons first more =>
      obtain ⟨rfl, others⟩ := List.cons.inj joined
      obtain ⟨front, back⟩ := ih others
      exact ⟨.single outside front, back⟩
  | @pair high low rest isHigh isLow later ih =>
    cases text with
    | nil =>
      cases joined
      exact ⟨.nil, .pair isHigh isLow later⟩
    | cons first more =>
      obtain ⟨rfl, others⟩ := List.cons.inj joined
      cases more with
      | nil =>
        have same : other = low :: rest := others
        rw [same] at stops
        have notLow : isLowSurrogate low = false := stops
        rw [isLow] at notLow
        cases notLow
      | cons second more =>
        obtain ⟨rfl, remaining⟩ := List.cons.inj others
        obtain ⟨front, back⟩ := ih remaining
        exact ⟨.pair isHigh isLow front, back⟩

/-- A unit outside the surrogates can be cut out. -/
theorem Paired.around {text other : Text} {unit : CodeUnit} (whole : Paired (text ++ unit :: other))
    (outside : isSurrogate unit = false) : Paired text ∧ Paired other := by
  have notLow : Stops isLowSurrogate (unit :: other) :=
    (CodeUnit.isSurrogate_eq_false_iff.mp outside).2
  obtain ⟨front, back⟩ := whole.cut notLow
  exact ⟨front, back.after_single outside⟩

theorem Paired.of_append_allOf {text other : Text} (whole : Paired (text ++ other))
    (outside : AllOf (fun unit => !isSurrogate unit) text) : Paired other :=
  (paired_of_allOf outside).of_append whole

theorem Paired.flatMap {text : Text} {escape : CodeUnit → Text} (paired : Paired text)
    (keeps : ∀ unit, escape unit = [unit] ∨ isSurrogate unit = false ∧ Paired (escape unit)) :
    Paired (text.flatMap escape) := by
  have kept : ∀ unit, isSurrogate unit = true → escape unit = [unit] := by
    intro unit inside
    rcases keeps unit with same | ⟨outside, _⟩
    · exact same
    · rw [inside] at outside
      cases outside
  induction paired with
  | nil => exact .nil
  | @single unit rest outside later ih =>
    rw [List.flatMap_cons]
    rcases keeps unit with same | ⟨_, escaped⟩
    · rw [same]
      exact .single outside ih
    · exact escaped.append ih
  | @pair high low rest isHigh isLow later ih =>
    rw [List.flatMap_cons, List.flatMap_cons, kept high (by simp [isSurrogate, isHigh]),
      kept low (by simp [isSurrogate, isLow])]
    exact .pair isHigh isLow ih

theorem paired_flatMap {Item : Type} {items : List Item} {write : Item → Text}
    (written : ∀ item ∈ items, Paired (write item)) : Paired (items.flatMap write) := by
  induction items with
  | nil => exact .nil
  | cons item others ih =>
    obtain ⟨first, later⟩ := List.forall_mem_cons.mp written
    rw [List.flatMap_cons]
    exact first.append (ih later)

theorem paired_encode {point : Nat} (small : point ≤ 0x10FFFF)
    (outside : ¬(0xD800 ≤ point ∧ point ≤ 0xDFFF)) : Paired (encode point) := by
  unfold encode
  split
  · rename_i basic
    refine .single ?_ .nil
    rw [← Bool.not_eq_true, CodeUnit.isSurrogate_iff, UInt16.toNat_ofNat_of_lt' basic]
    exact outside
  · refine .pair ?_ ?_ .nil
    · simp only [isHighSurrogate, Bool.and_eq_true, decide_eq_true_eq, UInt16.le_iff_toNat_le,
        UInt16.reduceToNat]
      rw [UInt16.toNat_ofNat_of_lt' (by simp [UInt16.size]; omega)]
      omega
    · simp only [isLowSurrogate, Bool.and_eq_true, decide_eq_true_eq, UInt16.le_iff_toNat_le,
        UInt16.reduceToNat]
      rw [UInt16.toNat_ofNat_of_lt' (by simp [UInt16.size]; omega)]
      omega

/-! ## Runs and cursors -/

/-- Every low surrogate is in the class, so that none of its runs ends inside a pair. -/
def TakesLow (belongs : CodeUnit → Bool) : Prop :=
  ∀ unit, isLowSurrogate unit = true → belongs unit = true

end Text

namespace CodeUnit

open Text (TakesLow)

theorem le_of_isLowSurrogate {unit : CodeUnit} (low : isLowSurrogate unit = true) :
    0xDC00 ≤ unit.toNat := by
  simp only [isLowSurrogate, Bool.and_eq_true, decide_eq_true_eq, UInt16.le_iff_toNat_le,
    UInt16.reduceToNat] at low
  exact low.1

theorem takesLow_isIdentifierUnit : TakesLow isIdentifierUnit := by
  intro unit low
  have far := le_of_isLowSurrogate low
  have beyond : 0x80 ≤ unit := UInt16.le_iff_toNat_le.mpr (Nat.le_trans (by decide) far)
  simp [isIdentifierUnit, beyond]

theorem takesLow_isNameUnit : TakesLow isNameUnit := by
  intro unit low
  simp [isNameUnit, takesLow_isIdentifierUnit unit low]

theorem ne_of_isLowSurrogate {unit mark : CodeUnit} (low : isLowSurrogate unit = true)
    (ascii : mark.toNat < 0x80) : unit ≠ mark := by
  rintro rfl
  have far := le_of_isLowSurrogate low
  omega

theorem takesLow_isAttributeNameUnit : TakesLow isAttributeNameUnit := by
  intro unit low
  have differs : ∀ mark : CodeUnit, mark.toNat < 0x80 → unit ≠ mark := fun mark ascii =>
    ne_of_isLowSurrogate low ascii
  simp [isAttributeNameUnit, isWhitespace, differs]

theorem isSurrogate_of_isWhitespace {unit : CodeUnit} (space : isWhitespace unit = true) :
    isSurrogate unit = false := by
  rcases isWhitespace_cases space with rfl | rfl | rfl | rfl | rfl <;> decide

end CodeUnit

namespace Text

open CodeUnit (isLowSurrogate)

variable {spaces rest : Text}

theorem Paired.after_blank (whole : Paired (spaces ++ rest)) (blank : Blank spaces) : Paired rest :=
  whole.of_append_allOf fun unit member => by
    simp [CodeUnit.isSurrogate_of_isWhitespace (blank unit member)]

theorem stops_blank_append (blank : Blank spaces) (stops : Stops isLowSurrogate rest) :
    Stops isLowSurrogate (spaces ++ rest) := by
  cases spaces with
  | nil => exact stops
  | cons space others =>
    have outside := CodeUnit.isSurrogate_of_isWhitespace (blank space List.mem_cons_self)
    exact (CodeUnit.isSurrogate_eq_false_iff.mp outside).2

end Text

namespace Cursor

open Text (Paired)

variable {cursor : Cursor}

theorem paired_span {belongs : CodeUnit → Bool} (takesLow : Text.TakesLow belongs)
    (paired : Paired cursor.rest) :
    Paired (cursor.span belongs).1 ∧ Paired (cursor.span belongs).2.rest := by
  obtain ⟨split, _, stops, _⟩ := cursor.span_eq belongs
  have whole : Paired ((cursor.span belongs).1 ++ (cursor.span belongs).2.rest) := split ▸ paired
  exact whole.cut (stops.mono takesLow)

theorem paired_skipWhitespace (paired : Paired cursor.rest) :
    Paired cursor.skipWhitespace.rest := by
  obtain ⟨spaces, blank, split, _, _⟩ := cursor.skipWhitespace_eq
  rw [split] at paired
  exact paired.after_blank blank

theorem paired_advance_one {unit : CodeUnit} {more : Text} (shows : cursor.rest = unit :: more)
    (outside : CodeUnit.isSurrogate unit = false) (paired : Paired cursor.rest) :
    Paired (cursor.advance 1).rest := by
  rw [rest_advance_one shows]
  rw [shows] at paired
  exact paired.after_single outside

end Cursor

/-! ## Attributes -/

namespace Attribute

structure Paired (pair : Attribute) : Prop where
  name : pair.name.Paired
  value : pair.value.Paired

def texts (pair : Attribute) : List Text := [pair.name, pair.value]

theorem Paired.of_mem_texts {pair : Attribute} {text : Text} (paired : pair.Paired)
    (member : text ∈ pair.texts) : text.Paired := by
  simp only [texts, List.mem_cons, List.not_mem_nil, or_false] at member
  rcases member with rfl | rfl
  · exact paired.name
  · exact paired.value

end Attribute
end HtmlFragments
