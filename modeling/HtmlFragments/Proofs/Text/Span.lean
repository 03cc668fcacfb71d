import HtmlFragments.Text.Cursor

/-! # Reading runs of units

A cursor into a source splits it into the text before the cursor and the text from there on. Reading
a run of units of a class moves the run from the second text to the end of the first, provided that
what follows the run does not go on with the class. -/
set_option autoImplicit false

namespace HtmlFragments

theorem bind_eq_of_ok {Error Item Value : Type} {first : Except Error Item}
    {next : Item → Except Error Value} {item : Item} (success : first = .ok item) :
    first >>= next = next item := by
  rw [success]
  rfl

theorem error_of_bind_error {Error Item Value : Type} {first : Except Error Item}
    {next : Item → Except Error Value} {failure : Error}
    (failed : first >>= next = .error failure) :
    first = .error failure ∨ ∃ item, first = .ok item ∧ next item = .error failure := by
  cases first with
  | error wrong =>
    cases failed
    exact .inl rfl
  | ok item => exact .inr ⟨item, rfl, failed⟩

/-- Readers that agree in what is seen of their values fail alike, or both succeed. -/
theorem cases_of_map_eq {Error Value Seen : Type} {view : Value → Seen}
    {first second : Except Error Value} (same : view <$> first = view <$> second) :
    (∃ failure, first = .error failure ∧ second = .error failure) ∨
      ∃ value other, first = .ok value ∧ second = .ok other ∧ view value = view other := by
  cases first with
  | error failure =>
    cases second with
    | error other =>
      cases same
      exact .inl ⟨failure, rfl, rfl⟩
    | ok other => cases same
  | ok value =>
    cases second with
    | error failure => cases same
    | ok other => exact .inr ⟨value, other, rfl, rfl, Except.ok.inj same⟩

instance decidableEqExcept {Error Value : Type} [DecidableEq Error] [DecidableEq Value] :
    DecidableEq (Except Error Value)
  | .ok value, .ok other => decidable_of_iff (value = other) (by simp)
  | .error failure, .error other => decidable_of_iff (failure = other) (by simp)
  | .ok _, .error _ => .isFalse nofun
  | .error _, .ok _ => .isFalse nofun

theorem CodeUnit.isWhitespace_cases {unit : CodeUnit} (space : isWhitespace unit = true) :
    unit = 0x20 ∨ unit = 0x09 ∨ unit = 0x0A ∨ unit = 0x0C ∨ unit = 0x0D := by
  simpa [isWhitespace, or_assoc] using space

namespace Text

def Stops (belongs : CodeUnit → Bool) : Text → Prop
  | [] => True
  | unit :: _ => belongs unit = false

def AllOf (belongs : CodeUnit → Bool) (text : Text) : Prop := ∀ unit ∈ text, belongs unit = true

instance (belongs : CodeUnit → Bool) : (text : Text) → Decidable (Stops belongs text)
  | [] => .isTrue trivial
  | unit :: _ => inferInstanceAs (Decidable (belongs unit = false))

-- By name, so that it goes through the text and never through all units there are.
instance (belongs : CodeUnit → Bool) (text : Text) : Decidable (AllOf belongs text) :=
  List.decidableBAll (belongs · = true) text

abbrev Blank (text : Text) : Prop := AllOf CodeUnit.isWhitespace text

theorem allOf_nil (belongs : CodeUnit → Bool) : AllOf belongs [] := by
  intro unit member
  cases member

theorem allOf_cons (belongs : CodeUnit → Bool) (unit : CodeUnit) (text : Text) :
    AllOf belongs (unit :: text) ↔ belongs unit = true ∧ AllOf belongs text :=
  List.forall_mem_cons

theorem takeWhile_append_of_stops (belongs : CodeUnit → Bool) (word rest : Text)
    (inside : AllOf belongs word) (outside : Stops belongs rest) :
    (word ++ rest).takeWhile belongs = word := by
  rw [List.takeWhile_append_of_pos inside]
  cases rest with
  | nil => simp
  | cons unit more =>
    have ended : belongs unit = false := outside
    simp [ended]

theorem dropWhile_append_of_stops (belongs : CodeUnit → Bool) (word rest : Text)
    (inside : AllOf belongs word) (outside : Stops belongs rest) :
    (word ++ rest).dropWhile belongs = rest := by
  rw [List.dropWhile_append_of_pos inside]
  cases rest with
  | nil => rfl
  | cons unit more =>
    have ended : belongs unit = false := outside
    simp [ended]

theorem stops_dropWhile (belongs : CodeUnit → Bool) (text : Text) :
    Stops belongs (text.dropWhile belongs) := by
  induction text with
  | nil => trivial
  | cons unit rest ih =>
    by_cases inside : belongs unit = true
    · rw [List.dropWhile_cons_of_pos inside]
      exact ih
    · rw [List.dropWhile_cons_of_neg inside]
      simpa [Stops] using inside

theorem allOf_takeWhile (belongs : CodeUnit → Bool) (text : Text) :
    AllOf belongs (text.takeWhile belongs) := by
  intro unit member
  exact List.all_eq_true.mp List.all_takeWhile unit member

/-- Every text begins with its longest run of units of a class. -/
theorem exists_run (belongs : CodeUnit → Bool) (text : Text) :
    ∃ word rest, text = word ++ rest ∧ AllOf belongs word ∧ Stops belongs rest :=
  ⟨text.takeWhile belongs, text.dropWhile belongs, List.takeWhile_append_dropWhile.symm,
    allOf_takeWhile belongs text, stops_dropWhile belongs text⟩

theorem begins_or_stops (belongs : CodeUnit → Bool) (text : Text) :
    (∃ unit more, text = unit :: more ∧ belongs unit = true) ∨ Stops belongs text := by
  cases text with
  | nil => exact .inr trivial
  | cons unit more =>
    cases inside : belongs unit with
    | true => exact .inl ⟨unit, more, rfl, inside⟩
    | false => exact .inr inside

/-- Only the first unit of a text decides whether a run stops before it. -/
theorem Stops.congr {belongs : CodeUnit → Bool} {text other : Text} (stops : Stops belongs text)
    (same : other.head? = text.head?) : Stops belongs other := by
  cases other with
  | nil => trivial
  | cons unit more =>
    obtain ⟨rest, rfl⟩ := List.head?_eq_some_iff.mp same.symm
    exact stops

theorem Stops.mono {belongs fewer : CodeUnit → Bool} {text : Text} (stops : Stops belongs text)
    (within : ∀ unit, fewer unit = true → belongs unit = true) : Stops fewer text := by
  cases text with
  | nil => trivial
  | cons unit rest =>
    have outside : belongs unit = false := stops
    show fewer unit = false
    rw [← Bool.not_eq_true]
    intro inside
    rw [within unit inside] at outside
    cases outside

theorem Stops.append {belongs : CodeUnit → Bool} {word rest other : Text}
    (stops : Stops belongs (word ++ rest)) (same : Stops belongs rest → Stops belongs other) :
    Stops belongs (word ++ other) := by
  cases word with
  | nil => exact same stops
  | cons unit more => exact stops

theorem length_lt_of_head? {word : Text} {unit : CodeUnit} (front : word.head? = some unit)
    (before rest : Text) : rest.length < (before ++ (word ++ rest)).length := by
  obtain ⟨more, rfl⟩ := List.head?_eq_some_iff.mp front
  simp only [List.length_append, List.length_cons]
  omega

theorem stops_beq_iff {mark : CodeUnit} {text : Text} :
    Stops (· == mark) text ↔ text.head? ≠ some mark := by
  cases text <;> simp [Stops]

theorem drop_length_takeWhile (belongs : CodeUnit → Bool) (text : Text) :
    text.drop (text.takeWhile belongs).length = text.dropWhile belongs := by
  conv =>
    lhs
    rw [← List.takeWhile_append_dropWhile (p := belongs) (l := text)]
  rw [takeWhile_append_of_stops belongs _ _ (allOf_takeWhile belongs text)
    (stops_dropWhile belongs text)]
  exact List.drop_left

end Text

namespace Cursor

/-- The cursor between the text before it and the text from there on. -/
def between (before rest : Text) : Cursor := ⟨before.length, rest⟩

@[simp]
theorem between_rest (before rest : Text) : (between before rest).rest = rest := rfl

@[simp]
theorem between_position (before rest : Text) : (between before rest).position = before.length :=
  rfl

theorem exists_between (cursor : Cursor) : ∃ before, cursor = between before cursor.rest := by
  refine ⟨List.replicate cursor.position 0, ?_⟩
  rw [between, List.length_replicate]

/-- The reader takes the text for the value before whatever fits after it. -/
def Takes {Error Value : Type} (reader : Cursor → Except Error (Value × Cursor))
    (before taken : Text) (value : Value) (fits : Text → Prop) : Prop :=
  ∀ other, fits other →
    reader (between before (taken ++ other)) = .ok (value, between (before ++ taken) other)

theorem rest_advance_one {cursor : Cursor} {unit : CodeUnit} {more : Text}
    (shows : cursor.rest = unit :: more) : (cursor.advance 1).rest = more := by
  simp [advance, shows]

theorem advance_between (before word rest : Text) (count : Nat) (whole : count = word.length) :
    (between before (word ++ rest)).advance count = between (before ++ word) rest := by
  subst whole
  simp [advance, between]

theorem advance_quote (before text rest : Text) (quote : CodeUnit) :
    (between before (quote :: (text ++ [quote]) ++ rest)).advance 1 =
      between (before ++ [quote]) (text ++ quote :: rest) := by
  rw [← advance_between before [quote] (text ++ quote :: rest) 1 rfl]
  simp

theorem span_between (belongs : CodeUnit → Bool) (before word rest : Text)
    (inside : Text.AllOf belongs word) (outside : Text.Stops belongs rest) :
    (between before (word ++ rest)).span belongs = (word, between (before ++ word) rest) := by
  simp only [span, between_rest]
  rw [Text.takeWhile_append_of_stops belongs word rest inside outside,
    advance_between before word rest word.length rfl]

theorem skipWhitespace_between (before spaces rest : Text) (blank : Text.Blank spaces)
    (outside : Text.Stops CodeUnit.isWhitespace rest) :
    (between before (spaces ++ rest)).skipWhitespace = between (before ++ spaces) rest := by
  rw [skipWhitespace, span_between _ before spaces rest blank outside]

theorem span_eq (belongs : CodeUnit → Bool) (cursor : Cursor) :
    cursor.rest = (cursor.span belongs).1 ++ (cursor.span belongs).2.rest ∧
      Text.AllOf belongs (cursor.span belongs).1 ∧
      Text.Stops belongs (cursor.span belongs).2.rest ∧
      (cursor.span belongs).2.position = cursor.position + (cursor.span belongs).1.length := by
  refine ⟨?_, Text.allOf_takeWhile belongs cursor.rest, ?_, rfl⟩
  · simp only [span, advance, Text.drop_length_takeWhile, List.takeWhile_append_dropWhile]
  · simp only [span, advance, Text.drop_length_takeWhile]
    exact Text.stops_dropWhile belongs cursor.rest

theorem skipWhitespace_eq (cursor : Cursor) :
    ∃ spaces, Text.Blank spaces ∧ cursor.rest = spaces ++ cursor.skipWhitespace.rest ∧
      Text.Stops CodeUnit.isWhitespace cursor.skipWhitespace.rest ∧
      cursor.skipWhitespace.position = cursor.position + spaces.length := by
  obtain ⟨split, inside, outside, moved⟩ := span_eq CodeUnit.isWhitespace cursor
  exact ⟨_, inside, split, outside, moved⟩

theorem skipWhitespace_of_stops {cursor : Cursor}
    (stops : Text.Stops CodeUnit.isWhitespace cursor.rest) : cursor.skipWhitespace = cursor := by
  have none : cursor.rest.takeWhile CodeUnit.isWhitespace = [] :=
    Text.takeWhile_append_of_stops _ [] _ (Text.allOf_nil _) stops
  simp [skipWhitespace, span, advance, none]

@[simp]
theorem skipWhitespace_skipWhitespace (cursor : Cursor) :
    cursor.skipWhitespace.skipWhitespace = cursor.skipWhitespace := by
  obtain ⟨_, _, _, stops, _⟩ := cursor.skipWhitespace_eq
  exact skipWhitespace_of_stops stops

end Cursor
end HtmlFragments
