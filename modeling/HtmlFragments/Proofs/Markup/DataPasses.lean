import HtmlFragments.Proofs.Markup.DataReading
import HtmlFragments.Proofs.Markup.Loop

/-! # Character data in passes

Character data can be read a stretch at a time. A pass takes one reference, or copies units that
neither end the data nor begin a reference, as many as can be found in one search. However it is cut
into passes, the data is the same. -/
set_option autoImplicit false

namespace HtmlFragments

namespace Text

def lengthBefore (first second : CodeUnit) (text : Text) : Nat :=
  match indexOf? [first] text, indexOf? [second] text with
  | some index, some other => min index other
  | some index, none => index
  | none, some index => index
  | none, none => text.length

theorem indexOf?_mark (mark unit : CodeUnit) (rest : Text) :
    indexOf? [mark] (unit :: rest) =
      if mark = unit then some 0 else (indexOf? [mark] rest).map (· + 1) := by
  rw [indexOf?.eq_def]
  simp [List.isPrefixOf]

theorem lengthBefore_mark {first second unit : CodeUnit} (rest : Text)
    (marks : unit = first ∨ unit = second) : lengthBefore first second (unit :: rest) = 0 := by
  rcases marks with rfl | rfl
  · rw [lengthBefore, indexOf?_mark unit, if_pos rfl]
    cases indexOf? [second] (unit :: rest) <;> simp
  · rw [lengthBefore, indexOf?_mark unit, if_pos rfl]
    cases indexOf? [first] (unit :: rest) <;> simp

theorem lengthBefore_cons {first second unit : CodeUnit} (rest : Text) (notFirst : first ≠ unit)
    (notSecond : second ≠ unit) :
    lengthBefore first second (unit :: rest) = lengthBefore first second rest + 1 := by
  rw [lengthBefore, lengthBefore, indexOf?_mark, indexOf?_mark, if_neg notFirst, if_neg notSecond]
  cases indexOf? [first] rest <;> cases indexOf? [second] rest <;> simp

theorem exists_before (first second : CodeUnit) (text : Text) :
    ∃ word rest, text = word ++ rest ∧ word.length = lengthBefore first second text ∧
      ∀ unit ∈ word, unit ≠ first ∧ unit ≠ second := by
  induction text with
  | nil => exact ⟨[], [], rfl, rfl, nofun⟩
  | cons unit text ih =>
    by_cases marks : unit = first ∨ unit = second
    · exact ⟨[], unit :: text, rfl, (lengthBefore_mark text marks).symm, nofun⟩
    · obtain ⟨notFirst, notSecond⟩ := not_or.mp marks
      obtain ⟨word, rest, rfl, length, free⟩ := ih
      refine ⟨unit :: word, rest, rfl, ?_, List.forall_mem_cons.mpr ⟨⟨notFirst, notSecond⟩, free⟩⟩
      rw [lengthBefore_cons _ (Ne.symm notFirst) (Ne.symm notSecond), List.length_cons, length]

end Text

namespace CharacterData

def Plain (ends : Text → Bool) : Text → Text → Prop
  | [], _ => True
  | unit :: more, rest =>
    ends (unit :: (more ++ rest)) = false ∧ unit ≠ 0x26 ∧ Plain ends more rest

theorem read_plain {ends : Text → Bool} {word rest : Text} (plain : Plain ends word rest) :
    read ends (word ++ rest) = (word ++ (read ends rest).1, word.length + (read ends rest).2) := by
  induction word with
  | nil => simp
  | cons unit more ih =>
    obtain ⟨continues, notAmpersand, later⟩ := plain
    rw [List.cons_append, read_literal continues notAmpersand, ih later]
    simp only [List.cons_append, List.length_cons, Prod.mk.injEq, true_and]
    omega

theorem plain_of_free {ends : Text → Bool} {mark : CodeUnit} {word : Text} (rest : Text)
    (passes : ∀ unit rest, unit ≠ mark → ends (unit :: rest) = false)
    (free : ∀ unit ∈ word, unit ≠ mark ∧ unit ≠ 0x26) : Plain ends word rest := by
  induction word with
  | nil => trivial
  | cons unit more ih =>
    obtain ⟨⟨notMark, notAmpersand⟩, others⟩ := List.forall_mem_cons.mp free
    exact ⟨passes unit _ notMark, notAmpersand, ih others⟩

end CharacterData

namespace Markup

open CharacterData (Plain read endsQuoted endsBare)
open Limited (full)

/-- A kind of character data: where it ends, and how many units a pass copies at most. What is
copied is plain, and unless a reference begins the data it is something. -/
structure DataKind where
  ends : Text → Bool
  stretch : Text → Nat
  plain : ∀ unit text, ends (unit :: text) = false → unit ≠ 0x26 →
    ∃ word rest, unit :: text = word ++ rest ∧ word ≠ [] ∧ word.length = stretch (unit :: text) ∧
      Plain ends word rest

/-- A stretch up to the mark that ends the data or up to a `&` is plain. -/
theorem plain_stretch {ends : Text → Bool} {mark unit : CodeUnit} (text : Text)
    (passes : ∀ unit rest, unit ≠ mark → ends (unit :: rest) = false) (notMark : unit ≠ mark)
    (notAmpersand : unit ≠ 0x26) :
    ∃ word rest, unit :: text = word ++ rest ∧ word ≠ [] ∧
      word.length = Text.lengthBefore mark 0x26 (unit :: text) ∧ Plain ends word rest := by
  obtain ⟨word, rest, whole, length, free⟩ := Text.exists_before mark 0x26 (unit :: text)
  refine ⟨word, rest, whole, ?_, length, CharacterData.plain_of_free rest passes free⟩
  rintro rfl
  rw [Text.lengthBefore_cons text notMark.symm notAmpersand.symm] at length
  cases length

theorem plain_single {ends : Text → Bool} {unit : CodeUnit} (text : Text)
    (continues : ends (unit :: text) = false) (notAmpersand : unit ≠ 0x26) :
    ∃ word rest, unit :: text = word ++ rest ∧ word ≠ [] ∧ word.length = 1 ∧
      Plain ends word rest :=
  ⟨[unit], text, rfl, List.cons_ne_nil _ _, rfl, continues, notAmpersand, trivial⟩

namespace DataKind

def text : DataKind where
  ends := endsText
  stretch
    | 0x3C :: _ => 1
    | rest => Text.lengthBefore 0x3C 0x26 rest
  plain unit rest continues notAmpersand := by
    by_cases opening : unit = 0x3C
    · subst opening
      exact plain_single rest continues notAmpersand
    · have passes : ∀ unit rest, unit ≠ 0x3C → endsText (unit :: rest) = false :=
        fun _ rest notOpening => CharacterData.endsText_of_ne notOpening rest
      obtain ⟨word, tail, whole, filled, length, plain⟩ :=
        plain_stretch rest passes opening notAmpersand
      refine ⟨word, tail, whole, filled, length.trans ?_, plain⟩
      split
      · rename_i same
        exact absurd (List.cons.inj same).1 opening
      · rfl

def quoted (quote : CodeUnit) : DataKind where
  ends := endsQuoted quote
  stretch := Text.lengthBefore quote 0x26
  plain _ rest continues notAmpersand :=
    plain_stretch rest (fun _ _ notQuote => beq_eq_false_iff_ne.mpr notQuote)
      (beq_eq_false_iff_ne.mp continues) notAmpersand

def bare : DataKind where
  ends := endsBare
  stretch _ := 1
  plain _ rest := plain_single rest

def take (kind : DataKind) : Text → Text × Nat
  | 0x26 :: rest => ((Reference.read rest).1, 1 + (Reference.read rest).2)
  | rest => (rest.take (kind.stretch rest), kind.stretch rest)

theorem take_plain (kind : DataKind) {unit : CodeUnit} {text : Text}
    (continues : kind.ends (unit :: text) = false) (notAmpersand : unit ≠ 0x26) :
    ∃ word rest, unit :: text = word ++ rest ∧ word ≠ [] ∧
      kind.take (unit :: text) = (word, word.length) ∧ Plain kind.ends word rest := by
  obtain ⟨word, rest, whole, filled, length, plain⟩ := kind.plain unit text continues notAmpersand
  refine ⟨word, rest, whole, filled, ?_, plain⟩
  unfold take
  split
  · rename_i same
    exact absurd (List.cons.inj same).1 notAmpersand
  · rw [← length, whole, List.take_left]

theorem take_count_pos (kind : DataKind) {unit : CodeUnit} {text : Text}
    (continues : kind.ends (unit :: text) = false) : 0 < (kind.take (unit :: text)).2 := by
  by_cases ampersand : unit = 0x26
  · subst ampersand
    exact Nat.add_pos_left Nat.one_pos _
  · obtain ⟨word, _, _, filled, takes, _⟩ := kind.take_plain continues ampersand
    rw [takes]
    exact List.length_pos_iff.mpr filled

/-- Reading goes on behind a pass with what follows. -/
theorem read_take (kind : DataKind) {unit : CodeUnit} {text : Text}
    (continues : kind.ends (unit :: text) = false) :
    read kind.ends (unit :: text) =
      ((kind.take (unit :: text)).1 ++
          (read kind.ends ((unit :: text).drop (kind.take (unit :: text)).2)).1,
        (kind.take (unit :: text)).2 +
          (read kind.ends ((unit :: text).drop (kind.take (unit :: text)).2)).2) := by
  by_cases ampersand : unit = 0x26
  · subst ampersand
    rw [CharacterData.read, if_neg (by rw [continues]; decide), if_pos rfl]
    simp only [take, Nat.add_comm 1, List.drop_succ_cons]
  · obtain ⟨word, rest, whole, _, takes, plain⟩ := kind.take_plain continues ampersand
    rw [takes, whole, CharacterData.read_plain plain, List.drop_left]

/-! ## The loop -/

def loop (kind : DataKind) : Loop CodeUnit Unit where
  outcome cursor := if cursor.rest.isEmpty || kind.ends cursor.rest then some (.ok ()) else none
  pass cursor :=
    full (.ok (.adds (kind.take cursor.rest).1, cursor.advance (kind.take cursor.rest).2))

variable {kind : DataKind} {cursor : Cursor}

theorem loop_outcome_eq_none (goesOn : kind.loop.outcome cursor = none) :
    ∃ unit rest, cursor.rest = unit :: rest ∧ kind.ends (unit :: rest) = false := by
  cases shows : cursor.rest with
  | nil => simp [loop, shows] at goesOn
  | cons unit rest => exact ⟨unit, rest, rfl, by simpa [loop, shows] using goesOn⟩

theorem loop_outcome_of_continues {unit : CodeUnit} {rest : Text} (shows : cursor.rest = unit :: rest)
    (continues : kind.ends (unit :: rest) = false) : kind.loop.outcome cursor = none := by
  simp [loop, shows, continues]

theorem loop_outcome_eq_some {reading : Reading Unit}
    (comes : kind.loop.outcome cursor = some reading) :
    reading = .ok () ∧ read kind.ends cursor.rest = ([], 0) := by
  simp only [loop, Option.ite_none_right_eq_some, Bool.or_eq_true, List.isEmpty_iff,
    Option.some.injEq] at comes
  exact ⟨comes.2.symm, CharacterData.read_ended comes.1⟩

theorem loop_advances (kind : DataKind) : kind.loop.Advances where
  pass cursor goesOn := by
    obtain ⟨unit, rest, shows, continues⟩ := loop_outcome_eq_none goesOn
    refine forward_ok (cursor.movesTo_advance _) ?_
    have moves := kind.take_count_pos continues
    rw [← shows] at moves
    exact Nat.lt_add_of_pos_right moves
  filled cursor _ goesOn _ := by
    obtain ⟨unit, rest, shows, _⟩ := loop_outcome_eq_none goesOn
    rw [shows]
    exact List.cons_ne_nil _ _
  outcome cursor failure comes := by cases (loop_outcome_eq_some comes).1

def readWhole (ends : Text → Bool) (cursor : Cursor) : Reading ((Text × Unit) × Cursor) :=
  .ok (((read ends cursor.rest).1, ()), cursor.advance (read ends cursor.rest).2)

theorem loop_unrolls (kind : DataKind) (bound : Nat) :
    kind.loop.Unrolls bound (readWhole kind.ends) where
  outcome cursor reading comes := by
    obtain ⟨rfl, nothing⟩ := loop_outcome_eq_some comes
    rw [readWhole, nothing]
    rfl
  pass cursor goesOn _ := by
    obtain ⟨unit, rest, shows, continues⟩ := loop_outcome_eq_none goesOn
    have whole := kind.read_take continues
    rw [← shows] at whole
    rw [readWhole, whole]
    show full (.ok (Loop.prepend _ _)) = full (.ok _)
    simp [Loop.prepend, Cursor.advance, Nat.add_assoc]

theorem run_loop (kind : DataKind) {limit : Nat} (enough : cursor.remaining < limit) :
    kind.loop.run limit [] cursor = full (readWhole kind.ends cursor) :=
  (kind.loop_unrolls cursor.remaining).run kind.loop_advances [] enough (Nat.le_refl _)

end DataKind
end Markup
end HtmlFragments
