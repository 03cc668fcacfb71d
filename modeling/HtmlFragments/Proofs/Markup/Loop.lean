import HtmlFragments.Markup.Tag
import HtmlFragments.Proofs.Text.Span

/-! # Loops whose passes are limited

A loop makes passes until it is over, until a pass ends it or until one fails. Here the number of
passes is limited, and reading gives nothing where the limit cuts it off. If every pass moves the
cursor forward, then a loop moves it forward too, and a limit above the number of units that are left
cuts off nothing. -/
set_option autoImplicit false

namespace HtmlFragments

namespace Cursor

variable {cursor middle after : Cursor}

def MovesTo (cursor after : Cursor) : Prop := ∃ count, after = cursor.advance count

theorem movesTo_advance (cursor : Cursor) (count : Nat) : cursor.MovesTo (cursor.advance count) :=
  ⟨count, rfl⟩

theorem MovesTo.refl (cursor : Cursor) : cursor.MovesTo cursor := ⟨0, rfl⟩

theorem MovesTo.trans (first : cursor.MovesTo middle) (second : middle.MovesTo after) :
    cursor.MovesTo after := by
  obtain ⟨count, rfl⟩ := first
  obtain ⟨more, rfl⟩ := second
  exact ⟨count + more, by simp [advance, Nat.add_assoc]⟩

theorem movesTo_span (belongs : CodeUnit → Bool) (cursor : Cursor) :
    cursor.MovesTo (cursor.span belongs).2 :=
  ⟨_, rfl⟩

theorem movesTo_skipWhitespace (cursor : Cursor) : cursor.MovesTo cursor.skipWhitespace :=
  ⟨_, rfl⟩

theorem MovesTo.position_le (moves : cursor.MovesTo after) : cursor.position ≤ after.position := by
  obtain ⟨count, rfl⟩ := moves
  exact Nat.le_add_right _ _

theorem MovesTo.remaining_le (moves : cursor.MovesTo after) :
    after.remaining ≤ cursor.remaining := by
  obtain ⟨count, rfl⟩ := moves
  exact cursor.advance_remaining_le count

theorem MovesTo.remaining_lt (moves : cursor.MovesTo after)
    (forward : cursor.position < after.position) (filled : cursor.rest ≠ []) :
    after.remaining < cursor.remaining := by
  obtain ⟨count, rfl⟩ := moves
  refine cursor.advance_remaining_lt count (List.length_pos_iff.mpr filled) ?_
  exact Nat.pos_of_lt_add_right forward

end Cursor

namespace Markup

/-- A reading that gives nothing where a limit cuts it off. -/
abbrev Limited := ExceptT (Failure Expectation) Option

namespace Limited

variable {Item Value : Type}

def cut : Limited Value := ExceptT.mk none

def full (reading : Reading Value) : Limited Value := ExceptT.mk (some reading)

theorem eq_cut_or_full (limited : Limited Value) :
    limited = cut ∨ ∃ reading, limited = full reading :=
  match limited with
  | none => .inl rfl
  | some reading => .inr ⟨reading, rfl⟩

theorem full_inj {reading other : Reading Value} (same : full reading = full other) :
    reading = other :=
  Option.some.inj same

theorem full_bind {reading : Reading Item} {next : Item → Limited Value}
    {whole : Item → Reading Value}
    (same : ∀ item, reading = .ok item → next item = full (whole item)) :
    full reading >>= next = full (reading >>= whole) := by
  cases reading with
  | error failure => rfl
  | ok item => exact same item rfl

theorem full_bind_full (reading : Reading Item) (next : Item → Reading Value) :
    (full reading >>= fun item => full (next item)) = full (reading >>= next) :=
  full_bind fun _ _ => rfl

theorem full_of_bind_full {limited : Limited Item} {next : Item → Limited Value}
    {result : Reading Value} (whole : limited >>= next = full result) :
    (∃ failure, limited = full (.error failure) ∧ result = .error failure) ∨
      ∃ item, limited = full (.ok item) ∧ next item = full result := by
  obtain rfl | ⟨reading, rfl⟩ := limited.eq_cut_or_full
  · cases whole
  · cases reading with
    | error failure => exact .inl ⟨failure, rfl, (full_inj whole).symm⟩
    | ok item => exact .inr ⟨item, rfl, whole⟩

end Limited

open Limited

/-- A reading from a cursor on ends there or behind it, and what makes it fail stands there or behind
it. -/
structure Onward {Value : Type} (place : Value → Cursor) (cursor : Cursor)
    (limited : Limited Value) : Prop where
  moves : ∀ value, limited = full (.ok value) → cursor.MovesTo (place value)
  fails : ∀ failure, limited = full (.error failure) → cursor.position ≤ failure.position

structure Forward {Value : Type} (place : Value → Cursor) (cursor : Cursor)
    (limited : Limited Value) : Prop extends Onward place cursor limited where
  strictly : ∀ value, limited = full (.ok value) → cursor.position < (place value).position

section

variable {Item Value : Type} {seen : Item → Cursor} {place : Value → Cursor}
  {cursor middle : Cursor} {limited : Limited Item} {next : Item → Limited Value}

theorem onward_ok {value : Value} (moves : cursor.MovesTo (place value)) :
    Onward place cursor (full (.ok value)) where
  moves _ same := by
    cases full_inj same
    exact moves
  fails _ same := by cases full_inj same

theorem onward_error {failure : Failure Expectation} (behind : cursor.position ≤ failure.position) :
    Onward place cursor (full (.error failure)) where
  moves _ same := by cases full_inj same
  fails _ same := by
    cases full_inj same
    exact behind

theorem forward_ok {value : Value} (moves : cursor.MovesTo (place value))
    (strictly : cursor.position < (place value).position) :
    Forward place cursor (full (.ok value)) where
  toOnward := onward_ok moves
  strictly _ same := by
    cases full_inj same
    exact strictly

theorem forward_error {failure : Failure Expectation}
    (behind : cursor.position ≤ failure.position) : Forward place cursor (full (.error failure)) where
  toOnward := onward_error behind
  strictly _ same := by cases full_inj same

theorem Onward.behind {limited : Limited Value} (onward : Onward place middle limited)
    (moves : cursor.MovesTo middle) : Onward place cursor limited where
  moves value same := moves.trans (onward.moves value same)
  fails failure same := Nat.le_trans moves.position_le (onward.fails failure same)

theorem Forward.behind {limited : Limited Value} (forward : Forward place middle limited)
    (moves : cursor.MovesTo middle) : Forward place cursor limited where
  toOnward := forward.toOnward.behind moves
  strictly value same := Nat.lt_of_le_of_lt moves.position_le (forward.strictly value same)

theorem Onward.forward {limited : Limited Value} (onward : Onward place middle limited)
    (moves : cursor.MovesTo middle) (strictly : cursor.position < middle.position) :
    Forward place cursor limited where
  toOnward := onward.behind moves
  strictly value same := Nat.lt_of_lt_of_le strictly (onward.moves value same).position_le

/-- What follows a reading may also fail at a place before the one that was reached. -/
theorem Onward.bind_onward (first : Onward seen cursor limited)
    (later : ∀ item, limited = full (.ok item) → Onward place cursor (next item)) :
    Onward place cursor (limited >>= next) where
  moves value same := by
    rcases full_of_bind_full same with ⟨_, _, wrong⟩ | ⟨item, found, more⟩
    · cases wrong
    · exact (later item found).moves value more
  fails failure same := by
    rcases full_of_bind_full same with ⟨_, failed, whole⟩ | ⟨item, found, more⟩
    · cases whole
      exact first.fails failure failed
    · exact (later item found).fails failure more

theorem Onward.bind_forward (first : Onward seen cursor limited)
    (later : ∀ item, limited = full (.ok item) → Forward place cursor (next item)) :
    Forward place cursor (limited >>= next) where
  toOnward := first.bind_onward fun item found => (later item found).toOnward
  strictly value same := by
    rcases full_of_bind_full same with ⟨_, _, wrong⟩ | ⟨item, found, more⟩
    · cases wrong
    · exact (later item found).strictly value more

/-- Readings that go onward one after the other go onward together. -/
theorem Onward.bind (first : Onward seen cursor limited)
    (later : ∀ item, limited = full (.ok item) → Onward place (seen item) (next item)) :
    Onward place cursor (limited >>= next) :=
  first.bind_onward fun item found => (later item found).behind (first.moves item found)

theorem Forward.bind (first : Forward seen cursor limited)
    (later : ∀ item, limited = full (.ok item) → Onward place (seen item) (next item)) :
    Forward place cursor (limited >>= next) :=
  first.toOnward.bind_forward fun item found =>
    (later item found).forward (first.moves item found) (first.strictly item found)

end

inductive Pass (Item Result : Type) where
  | adds (items : List Item)
  | ends (result : Result)

/-- A loop that collects items from a cursor on. -/
structure Loop (Item Result : Type) where
  /-- What the loop comes to where no other pass is made. -/
  outcome : Cursor → Option (Reading Result)
  pass : Cursor → Limited (Pass Item Result × Cursor)

namespace Loop

variable {Item Result : Type}

def run (loop : Loop Item Result) (limit : Nat) (items : List Item) (cursor : Cursor) :
    Limited ((List Item × Result) × Cursor) :=
  match loop.outcome cursor with
  | some reading => full ((fun result => ((items, result), cursor)) <$> reading)
  | none =>
    match limit with
    | 0 => cut
    | limit + 1 => do
      match ← loop.pass cursor with
      | (.adds more, after) => loop.run limit (items ++ more) after
      | (.ends result, after) => return ((items, result), after)

/-- Every pass that does not fail has units left to read and moves the cursor forward. Where no other
pass is made, nothing fails at a place before the cursor. -/
structure Advances (loop : Loop Item Result) : Prop where
  pass : ∀ cursor, loop.outcome cursor = none → Forward Prod.snd cursor (loop.pass cursor)
  filled : ∀ cursor made, loop.outcome cursor = none → loop.pass cursor = full (.ok made) →
    cursor.rest ≠ []
  outcome : ∀ cursor failure, loop.outcome cursor = some (.error failure) →
    cursor.position ≤ failure.position

variable {loop : Loop Item Result} {cursor : Cursor}

theorem run_of_outcome {reading : Reading Result} (limit : Nat) (items : List Item)
    (comes : loop.outcome cursor = some reading) :
    loop.run limit items cursor =
      full ((fun result => ((items, result), cursor)) <$> reading) := by
  rw [run.eq_def, comes]

theorem run_zero (items : List Item) (goesOn : loop.outcome cursor = none) :
    loop.run 0 items cursor = cut := by
  rw [run.eq_def, goesOn]

theorem run_succ (limit : Nat) (items : List Item) (goesOn : loop.outcome cursor = none) :
    loop.run (limit + 1) items cursor = loop.pass cursor >>= fun made =>
      match made with
      | (.adds more, after) => loop.run limit (items ++ more) after
      | (.ends result, after) => full (.ok ((items, result), after)) := by
  rw [run.eq_def, goesOn]
  rfl

/-! ## A loop moves a cursor forward -/

theorem Advances.forward_of_onward (advances : loop.Advances) {limit : Nat} (items : List Item)
    (goesOn : loop.outcome cursor = none)
    (later : ∀ fewer < limit, ∀ items after, Onward Prod.snd after (loop.run fewer items after)) :
    Forward Prod.snd cursor (loop.run limit items cursor) := by
  cases limit with
  | zero =>
    rw [run_zero items goesOn]
    exact ⟨⟨nofun, nofun⟩, nofun⟩
  | succ limit =>
    rw [run_succ limit items goesOn]
    refine (advances.pass cursor goesOn).bind ?_
    rintro ⟨made, after⟩ _
    cases made with
    | adds more => exact later limit (Nat.lt_succ_self limit) (items ++ more) after
    | ends result => exact onward_ok (.refl after)

theorem Advances.onward (advances : loop.Advances) (limit : Nat) (items : List Item)
    (cursor : Cursor) : Onward Prod.snd cursor (loop.run limit items cursor) := by
  induction limit using Nat.strongRecOn generalizing items cursor with
  | ind limit ih =>
    cases comes : loop.outcome cursor with
    | none => exact (advances.forward_of_onward items comes ih).toOnward
    | some reading =>
      rw [run_of_outcome limit items comes]
      cases reading with
      | ok result => exact onward_ok (.refl cursor)
      | error failure => exact onward_error (advances.outcome cursor failure comes)

theorem Advances.forward (advances : loop.Advances) (limit : Nat) (items : List Item)
    (goesOn : loop.outcome cursor = none) :
    Forward Prod.snd cursor (loop.run limit items cursor) :=
  advances.forward_of_onward items goesOn fun fewer _ => advances.onward fewer

/-! ## A limit that cuts off nothing -/

def prepend (items : List Item) (found : (List Item × Result) × Cursor) :
    (List Item × Result) × Cursor :=
  ((items ++ found.1.1, found.1.2), found.2)

theorem prepend_prepend (items more : List Item) (reading : Reading ((List Item × Result) × Cursor)) :
    prepend items <$> prepend more <$> reading = prepend (items ++ more) <$> reading := by
  cases reading with
  | error failure => rfl
  | ok found =>
    have same : prepend items (prepend more found) = prepend (items ++ more) found := by
      simp [prepend]
    exact congrArg Except.ok same

/-- A reader does what the loop does, within a bound on the units that are left. -/
structure Unrolls (loop : Loop Item Result) (bound : Nat)
    (reader : Cursor → Reading ((List Item × Result) × Cursor)) : Prop where
  outcome : ∀ cursor reading, loop.outcome cursor = some reading →
    reader cursor = (fun result => (([], result), cursor)) <$> reading
  pass : ∀ cursor, loop.outcome cursor = none → cursor.remaining ≤ bound →
    (loop.pass cursor >>= fun made =>
      match made with
      | (.adds more, after) => full (prepend more <$> reader after)
      | (.ends result, after) => full (.ok (([], result), after))) = full (reader cursor)

/-- A limit above the number of units that are left leaves the reader as it is without a limit. -/
theorem Unrolls.run {bound limit : Nat} {reader : Cursor → Reading ((List Item × Result) × Cursor)}
    (unrolls : loop.Unrolls bound reader) (advances : loop.Advances) (items : List Item)
    (enough : cursor.remaining < limit) (inside : cursor.remaining ≤ bound) :
    loop.run limit items cursor = full (prepend items <$> reader cursor) := by
  -- Every pass takes one from the limit and at least one from the units that are left.
  induction limit generalizing items cursor with
  | zero => exact absurd enough (Nat.not_lt_zero _)
  | succ limit ih =>
    cases comes : loop.outcome cursor with
    | some reading =>
      rw [run_of_outcome _ items comes, unrolls.outcome cursor reading comes]
      cases reading <;> simp [prepend]
    | none =>
      rw [run_succ limit items comes]
      have whole := unrolls.pass cursor comes inside
      rcases full_of_bind_full whole with ⟨failure, failed, same⟩ | ⟨⟨made, after⟩, found, same⟩
      · rw [failed, same]
        rfl
      · have forward := advances.pass cursor comes
        have shorter : after.remaining < cursor.remaining :=
          (forward.moves _ found).remaining_lt (forward.strictly _ found)
            (advances.filled cursor _ comes found)
        rw [found]
        cases made with
        | adds more =>
          have later : loop.run limit (items ++ more) after =
              full (prepend (items ++ more) <$> reader after) :=
            ih (items ++ more) (by omega) (by omega)
          rw [← full_inj same, prepend_prepend, ← later]
          rfl
        | ends result =>
          have whole : prepend items (([], result), after) = ((items, result), after) := by
            simp [prepend]
          rw [← full_inj same]
          exact congrArg (fun found => full (.ok found)) whole.symm

end Loop
end Markup
end HtmlFragments
