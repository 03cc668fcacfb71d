import HtmlFragments.Proofs.Selector.Lookahead

/-! # Errors in queries and what could have followed

Where a reader of a query fails, what it has read up to there is the beginning of a text that the
grammar derives, and together with the unit that stands there it is not. Main result: an error is at
the first unit that no query can have there. Only a quoted value without an end is reported earlier,
at its opening quote. -/
set_option autoImplicit false

namespace HtmlFragments.Query

open Text (Stops Blank)

variable {Value Other : Type} {reader : Cursor → Reading Value} {other : Cursor → Reading Other}
  {derives whole : Text → Prop} {before text : Text} {failure : Failure Expectation}

/-- Reading fails after a word that could have gone on. With the unit that follows the word it fails
whatever comes later, unless a quoted value begins there that has no end. -/
structure FailsAfter (reader : Cursor → Reading Value) (derives : Text → Prop)
    (before word rest : Text) (failure : Failure Expectation) : Prop where
  position : failure.position = (before ++ word).length
  completes : ∃ ending, derives (word ++ ending)
  refuses : (∀ quote, failure.expectation ≠ .closingQuote quote) → rest ≠ [] →
    ∀ later, SameHead rest later → reader (.between before (word ++ later)) = .error failure
  unclosed : ∀ quote, failure.expectation = .closingQuote quote →
    ∃ more, rest = quote :: more ∧ quote ∉ more

def FailsIn (reader : Cursor → Reading Value) (derives : Text → Prop) (before text : Text)
    (failure : Failure Expectation) : Prop :=
  ∃ word rest, text = word ++ rest ∧ FailsAfter reader derives before word rest failure

theorem failsIn_here {expectation : Expectation} (completes : ∃ ending, derives ending)
    (unquoted : ∀ quote, expectation ≠ .closingQuote quote)
    (refuses : text ≠ [] → ∀ later, SameHead text later →
      reader (.between before later) = .error ⟨expectation, before.length⟩) :
    FailsIn reader derives before text ⟨expectation, before.length⟩ := by
  refine ⟨[], text, rfl, ?_, completes, fun _ => refuses, ?_⟩
  · rw [List.append_nil]
  · intro quote quoted
    exact absurd quoted (unquoted quote)

/-- A failure of a part is a failure of what begins with the part. -/
theorem FailsIn.begin (fails : FailsIn reader derives before text failure)
    (completes : ∀ part, derives part → ∃ ending, whole (part ++ ending))
    (same : ∀ later, SameHead text later → reader (.between before later) = .error failure →
      other (.between before later) = .error failure) :
    FailsIn other whole before text failure := by
  obtain ⟨word, rest, rfl, position, ⟨ending, derived⟩, refuses, unclosed⟩ := fails
  obtain ⟨more, completed⟩ := completes _ derived
  refine ⟨word, rest, rfl, position, ⟨ending ++ more, by simpa using completed⟩, ?_, unclosed⟩
  intro unquoted filled later sameHead
  exact same _ (sameHead.append word) (refuses unquoted filled later sameHead)

theorem FailsIn.mono (fails : FailsIn reader derives before text failure)
    (weaker : ∀ part, derives part → whole part) : FailsIn reader whole before text failure := by
  refine fails.begin ?_ fun _ _ failed => failed
  intro part derived
  exact ⟨[], by simpa using weaker part derived⟩

theorem FailsIn.after (first : Text)
    (fails : FailsIn reader (fun part => whole (first ++ part)) (before ++ first) text failure)
    (same : ∀ later, SameHead text later →
      reader (.between (before ++ first) later) = .error failure →
      other (.between before (first ++ later)) = .error failure) :
    FailsIn other whole before (first ++ text) failure := by
  obtain ⟨word, rest, rfl, position, ⟨ending, derived⟩, refuses, unclosed⟩ := fails
  refine ⟨first ++ word, rest, by simp, by simpa using position, ⟨ending, ?_⟩, ?_, unclosed⟩
  · rw [List.append_assoc]
    exact derived
  · intro unquoted filled later sameHead
    rw [List.append_assoc]
    exact same _ (sameHead.append word) (refuses unquoted filled later sameHead)

theorem FailsIn.skip (reader : Cursor → Reading Value)
    (failed : reader (Cursor.between before text).skipWhitespace = .error failure)
    (fails : ∀ spaces rest, Blank spaces → text = spaces ++ rest →
      reader (.between (before ++ spaces) rest) = .error failure →
      FailsIn reader (fun part => whole (spaces ++ part)) (before ++ spaces) rest failure) :
    FailsIn (fun cursor => reader cursor.skipWhitespace) whole before text failure := by
  obtain ⟨spaces, rest, rfl, blank, stops⟩ := Text.exists_run CodeUnit.isWhitespace text
  have skipped : ∀ later, SameHead rest later →
      (Cursor.between before (spaces ++ later)).skipWhitespace =
        .between (before ++ spaces) later :=
    fun later same => Cursor.skipWhitespace_between before spaces later blank (stops.congr same)
  rw [skipped rest rfl] at failed
  refine (fails spaces rest blank rfl failed).after spaces fun later same refused => ?_
  rw [skipped later same]
  exact refused

/-! ## Attribute tests -/

theorem identifier_letter : Grammar.Identifier [0x61] :=
  ⟨List.cons_ne_nil _ _, List.all_eq_true.mp (by decide)⟩

theorem readIdentifier_fails (expectation : Expectation)
    (unquoted : ∀ quote, expectation ≠ .closingQuote quote)
    (failed : readIdentifier expectation (.between before text) = .error failure) :
    FailsIn (readIdentifier expectation) Grammar.Identifier before text failure := by
  obtain ⟨name, rest, rfl, inside, stops⟩ := Text.exists_run CodeUnit.isIdentifierUnit text
  simp only [readIdentifier, Cursor.span_between _ before name rest inside stops] at failed
  split at failed
  · rename_i empty
    cases failed
    rw [List.isEmpty_iff.mp empty, List.nil_append]
    refine failsIn_here ⟨_, identifier_letter⟩ unquoted fun _ later same => ?_
    have nothing := Cursor.span_between CodeUnit.isIdentifierUnit before [] later
      (Text.allOf_nil _) (stops.congr same)
    rw [List.nil_append] at nothing
    simp only [readIdentifier, nothing]
    rfl
  · cases failed

theorem readQuotedValue_fails {quote : CodeUnit} {more : Text}
    (completes : ∃ ending, derives ending)
    (failed : readQuotedValue quote (.between before (quote :: more)) = .error failure) :
    FailsIn reader derives before (quote :: more) failure := by
  obtain ⟨inner, rest, rfl, inside, stops⟩ := Text.exists_run (· != quote) more
  have opened := Cursor.advance_between before [quote] (inner ++ rest) 1 rfl
  have run := Cursor.span_between (· != quote) (before ++ [quote]) inner rest inside stops
  rw [List.singleton_append] at opened
  simp only [readQuotedValue, opened, run, Cursor.between_rest] at failed
  split at failed
  · cases failed
    refine ⟨[], _, rfl, by simp, completes, ?_, ?_⟩
    · intro unquoted
      exact absurd rfl (unquoted quote)
    · intro same quoted
      cases quoted
      refine ⟨_, rfl, fun member => ?_⟩
      rw [List.append_nil] at member
      simpa using inside quote member
  · cases failed

theorem readValue_of_noQuote {cursor : Cursor} (noDouble : cursor.rest.head? ≠ some 0x22)
    (noSingle : cursor.rest.head? ≠ some 0x27) :
    readValue cursor = readIdentifier .attributeValue cursor := by
  unfold readValue
  split
  · rename_i shows
    rw [shows] at noDouble
    exact absurd rfl noDouble
  · rename_i shows
    rw [shows] at noSingle
    exact absurd rfl noSingle
  · rfl

theorem readValue_fails (failed : readValue (.between before text) = .error failure) :
    FailsIn readValue (fun part => ∃ value, Grammar.Value value part) before text failure := by
  by_cases double : text.head? = some 0x22
  · obtain ⟨more, rfl⟩ := List.head?_eq_some_iff.mp double
    exact readQuotedValue_fails ⟨_, _, .bare identifier_letter⟩ failed
  by_cases single : text.head? = some 0x27
  · obtain ⟨more, rfl⟩ := List.head?_eq_some_iff.mp single
    exact readQuotedValue_fails ⟨_, _, .bare identifier_letter⟩ failed
  have bare : ∀ later, SameHead text later → readValue (.between before later) =
      readIdentifier .attributeValue (.between before later) := by
    intro later same
    have sameHead : later.head? = text.head? := same
    apply readValue_of_noQuote
    · rw [Cursor.between_rest, sameHead]
      exact double
    · rw [Cursor.between_rest, sameHead]
      exact single
  rw [bare text rfl] at failed
  have nameFails := readIdentifier_fails .attributeValue (by simp) failed
  refine nameFails.begin ?_ fun later same refused => ?_
  · intro part identifier
    exact ⟨[], part, by simpa using Grammar.Value.bare identifier⟩
  · rw [bare later same]
    exact refused

theorem failsIn_of_absent {mark : CodeUnit} {expectation : Expectation}
    (completes : ∃ ending, derives ending)
    (refuses : ∀ later : Text, later.head? ≠ some mark →
      reader (.between before later) = .error ⟨expectation, before.length⟩)
    (unquoted : ∀ quote, expectation ≠ .closingQuote quote)
    (absent : text.head? ≠ some mark)
    (failed : reader (.between before text) = .error failure) :
    FailsIn reader derives before text failure := by
  rw [refuses text absent] at failed
  cases failed
  refine failsIn_here completes unquoted fun _ later same => refuses later ?_
  rw [show later.head? = text.head? from same]
  exact absent

theorem readEquals_fails (completes : ∃ ending, derives ending)
    (failed : readEquals (.between before text) = .error failure) :
    FailsIn readEquals derives before text failure := by
  have refuses : ∀ later : Text, later.head? ≠ some 0x3D →
      readEquals (.between before later) = .error ⟨.equalsSign, before.length⟩ := by
    intro later missing
    unfold readEquals
    split
    · rename_i shows
      exact absurd (congrArg List.head? shows) missing
    · rfl
  refine failsIn_of_absent completes refuses (by simp) (fun marked => ?_) failed
  obtain ⟨more, rfl⟩ := List.head?_eq_some_iff.mp marked
  cases failed

theorem readClosingBracket_fails (completes : ∃ ending, derives ending)
    (failed : readClosingBracket (.between before text) = .error failure) :
    FailsIn readClosingBracket derives before text failure := by
  have refuses : ∀ later : Text, later.head? ≠ some 0x5D →
      readClosingBracket (.between before later) = .error ⟨.closingBracket, before.length⟩ := by
    intro later missing
    unfold readClosingBracket
    split
    · rename_i shows
      exact absurd (congrArg List.head? shows) missing
    · rfl
  refine failsIn_of_absent completes refuses (by simp) (fun marked => ?_) failed
  obtain ⟨more, rfl⟩ := List.head?_eq_some_iff.mp marked
  cases failed

/-! What is left of an attribute test after its first pieces, for any text that these are a part
of. -/

def readTestEnd (required : Attribute) (cursor : Cursor) : Reading (Attribute × Cursor) := do
  let after ← readClosingBracket cursor
  return (required, after)

def readTestValue (name : Text) (cursor : Cursor) : Reading (Attribute × Cursor) := do
  let (value, after) ← readValue cursor
  readTestEnd ⟨name, value⟩ after.skipWhitespace

def readTestEquals (name : Text) (cursor : Cursor) : Reading (Attribute × Cursor) := do
  let after ← readEquals cursor
  readTestValue name after.skipWhitespace

def readTestName (cursor : Cursor) : Reading (Attribute × Cursor) := do
  let (name, after) ← readIdentifier .attributeName cursor
  readTestEquals name after.skipWhitespace

theorem readAttributeTest_eq :
    readAttributeTest = fun cursor => readTestName cursor.skipWhitespace :=
  rfl

theorem readTestEnd_fails {required : Attribute} (completes : whole [0x5D])
    (failed : readTestEnd required (.between before text) = .error failure) :
    FailsIn (readTestEnd required) whole before text failure := by
  rcases error_of_bind_error failed with closing | ⟨_, _, done⟩
  · refine (readClosingBracket_fails ⟨_, completes⟩ closing).begin ?_ fun later same refused => ?_
    · intro part derived
      exact ⟨[], by simpa using derived⟩
    · rw [readTestEnd, refused]
      rfl
  · cases done

theorem readTestValue_fails {name : Text}
    (completes : ∀ value written spaces, Grammar.Value value written → Blank spaces →
      whole (written ++ (spaces ++ [0x5D])))
    (failed : readTestValue name (.between before text) = .error failure) :
    FailsIn (readTestValue name) whole before text failure := by
  rcases error_of_bind_error failed with valued | ⟨⟨value, finish⟩, valued, failed⟩
  · refine (readValue_fails valued).begin ?_ fun later same refused => ?_
    · rintro part ⟨value, derived⟩
      exact ⟨[0x5D], completes value part [] derived (Text.allOf_nil _)⟩
    · rw [readTestValue, refused]
      rfl
  · obtain ⟨written, rest, rfl, rfl, derived, takes⟩ := readValue_lookahead valued
    refine FailsIn.after written (FailsIn.skip (readTestEnd ⟨name, value⟩) failed
      fun spaces tail blank _ failed => ?_)
      fun later same refused => (bind_eq_of_ok (takes later same)).trans refused
    exact readTestEnd_fails (completes value written spaces derived blank) failed

theorem readTestEquals_fails {name : Text}
    (completes : ∀ gap value written spaces, Blank gap → Grammar.Value value written →
      Blank spaces → whole (0x3D :: (gap ++ (written ++ (spaces ++ [0x5D])))))
    (failed : readTestEquals name (.between before text) = .error failure) :
    FailsIn (readTestEquals name) whole before text failure := by
  have nothing := Text.allOf_nil CodeUnit.isWhitespace
  rcases error_of_bind_error failed with equals | ⟨finish, equals, failed⟩
  · have completed := completes [] _ _ [] nothing (.bare identifier_letter) nothing
    refine (readEquals_fails ⟨_, completed⟩ equals).begin ?_ fun later same refused => ?_
    · intro part derived
      exact ⟨[], by simpa using derived⟩
    · rw [readTestEquals, refused]
      rfl
  · have begins : text = 0x3D :: finish.rest := readEquals_derives equals
    generalize finish.rest = rest at begins
    subst begins
    rw [readEquals_between] at equals
    cases equals
    refine FailsIn.after [0x3D] (FailsIn.skip (readTestValue name) failed
      fun gap tail blank _ failed => ?_)
      fun later same refused => (bind_eq_of_ok (readEquals_between before later)).trans refused
    exact readTestValue_fails (fun value written spaces => completes gap value written spaces blank)
      failed

theorem readAttributeTest_fails
    (failed : readAttributeTest (.between before text) = .error failure) :
    FailsIn readAttributeTest (fun part => ∃ required, Grammar.AttributeTest required part)
      before text failure := by
  have nothing := Text.allOf_nil CodeUnit.isWhitespace
  rw [readAttributeTest_eq] at failed ⊢
  refine FailsIn.skip readTestName failed fun spaces rest blank _ failed => ?_
  rcases error_of_bind_error failed with named | ⟨⟨name, finish⟩, named, failed⟩
  · have nameFails := readIdentifier_fails .attributeName (by simp) named
    refine nameFails.begin ?_ fun later same refused => ?_
    · intro part identifier
      exact ⟨[0x3D, 0x61, 0x5D], _,
        .spaced blank identifier nothing nothing (.bare identifier_letter) nothing⟩
    · rw [readTestName, refused]
      rfl
  · obtain ⟨tail, rfl, rfl, identifier, stops⟩ := readIdentifier_stops named
    refine FailsIn.after name (FailsIn.skip (readTestEquals name) failed
      fun gap more blankGap _ failed => ?_) fun later same refused => ?_
    · refine readTestEquals_fails ?_ failed
      intro between value written final blankBetween derived blankFinal
      exact ⟨_, .spaced blank identifier blankGap blankBetween derived blankFinal⟩
    · have takes := readIdentifier_between .attributeName (before ++ spaces) identifier
        (stops.congr same)
      exact (bind_eq_of_ok takes).trans refused

/-! ## Compound selectors -/

def IsRow (text : Text) : Prop :=
  text ≠ [] ∧ ∃ conditions : List Condition,
    Grammar.Conditions (conditions.filterMap Condition.id?) (conditions.filterMap Condition.class?)
      (conditions.filterMap Condition.attribute?) text

theorem isRow_id {name : Text} (identifier : Grammar.Identifier name) : IsRow (0x23 :: name) := by
  have row := Grammar.Conditions.idIs identifier .none
  rw [List.append_nil] at row
  exact ⟨List.cons_ne_nil _ _, [.idIs name], row⟩

theorem isRow_class {name : Text} (identifier : Grammar.Identifier name) :
    IsRow (0x2E :: name) := by
  have row := Grammar.Conditions.classIs identifier .none
  rw [List.append_nil] at row
  exact ⟨List.cons_ne_nil _ _, [.classIs name], row⟩

theorem isRow_attribute {required : Attribute} {test : Text}
    (derived : Grammar.AttributeTest required test) : IsRow (0x5B :: test) := by
  have row := Grammar.Conditions.attributeIs derived .none
  rw [List.append_nil] at row
  exact ⟨List.cons_ne_nil _ _, [.attributeIs required], row⟩

theorem failsIn_marked {mark : CodeUnit} {more : Text} (wrap : Value → Other)
    (opens : ∀ later, other (.between before (mark :: later)) =
      reader (.between (before ++ [mark]) later) >>= fun item => .ok (wrap item))
    (fails : reader (.between (before ++ [mark]) more) = .error failure →
      FailsIn reader derives (before ++ [mark]) more failure)
    (completes : ∀ part, derives part → whole (mark :: part))
    (failed : other (.between before (mark :: more)) = .error failure) :
    FailsIn other whole before (mark :: more) failure := by
  rw [opens] at failed
  rcases error_of_bind_error failed with first | ⟨_, _, done⟩
  · refine ((fails first).mono completes).after [mark] fun later _ refused => ?_
    rw [List.singleton_append, opens, refused]
    rfl
  · cases done

theorem readCondition_fails {unit : CodeUnit} {more : Text} (starts : startsCondition unit = true)
    (failed : readCondition (.between before (unit :: more)) = .error failure) :
    FailsIn readCondition IsRow before (unit :: more) failure := by
  simp only [startsCondition, Bool.or_eq_true, beq_iff_eq] at starts
  rcases starts with (rfl | rfl) | rfl
  · refine failsIn_marked (fun found => (.idIs found.1, found.2)) (fun later => ?_)
      (readIdentifier_fails .idValue (by simp)) (fun part => isRow_id) failed
    rw [← advance_one]
    rfl
  · refine failsIn_marked (fun found => (.classIs found.1, found.2)) (fun later => ?_)
      (readIdentifier_fails .classValue (by simp)) (fun part => isRow_class) failed
    rw [← advance_one]
    rfl
  · refine failsIn_marked (fun found => (.attributeIs found.1, found.2)) (fun later => ?_)
      readAttributeTest_fails ?_ failed
    · rw [← advance_one]
      rfl
    · rintro part ⟨required, derived⟩
      exact isRow_attribute derived

theorem readConditions_fails
    (failed : readConditions (.between before text) = .error failure) :
    FailsIn readConditions IsRow before text failure := by
  induction size : text.length using Nat.strongRecOn generalizing before text with
  | ind length ih =>
    rcases Text.begins_or_stops startsCondition text with ⟨unit, more, rfl, starts⟩ | stops
    · rw [readConditions_step rfl starts] at failed
      rcases error_of_bind_error failed with first | ⟨⟨condition, middle⟩, first, further⟩
      · refine (readCondition_fails starts first).begin ?_ fun later same refused => ?_
        · intro part row
          exact ⟨[], by simpa using row⟩
        · obtain ⟨tail, rfl⟩ := List.head?_eq_some_iff.mp same
          rw [readConditions_step rfl starts, refused]
          rfl
      · obtain ⟨word, rest, split, begins, rfl, takes⟩ := readCondition_lookahead starts first
        obtain ⟨derivedText, derivedSplit, nonempty, extend⟩ :=
          readCondition_derives rfl starts first
        obtain rfl : word = derivedText := List.append_cancel_right (split.symm.trans derivedSplit)
        have shorter : rest.length < length := by
          rw [split] at size
          exact size ▸ Text.length_lt_of_head? begins [] rest
        obtain ⟨letters, rfl⟩ := List.head?_eq_some_iff.mp begins
        rcases error_of_bind_error further with others | ⟨_, _, done⟩
        · rw [split]
          refine FailsIn.after _ ((ih rest.length shorter others rfl).mono ?_) ?_
          · rintro part ⟨filled, conditions, row⟩
            exact ⟨by simp, condition :: conditions, extend conditions part row⟩
          · intro later same refused
            rw [List.cons_append, readConditions_step rfl starts, ← List.cons_append,
              bind_eq_of_ok (takes later same)]
            dsimp only
            rw [refused]
            rfl
        · cases done
    · rw [readConditions_of_stops stops] at failed
      cases failed

def IsCompound (text : Text) : Prop := ∃ selector, Grammar.Compound selector text

theorem readCompound_fails (failed : readCompound (.between before text) = .error failure) :
    FailsIn readCompound IsCompound before text failure := by
  by_cases starts : startsCompound text = true
  · obtain ⟨tag, word, tail, rfl, tagged, derives⟩ := readTag_lookahead starts
    rw [readCompound_of_tag starts (tagged before tail rfl)] at failed
    rcases error_of_bind_error failed with found | ⟨_, _, done⟩
    · refine ((readConditions_fails found).mono ?_).after word ?_
      · rintro part ⟨filled, conditions, row⟩
        exact ⟨_, derives conditions part (by simp [filled]) row⟩
      · intro later same refused
        have startsLater : startsCompound (word ++ later) = true := by
          rw [startsCompound_congr (same.append word)]
          exact starts
        rw [readCompound_of_tag startsLater (tagged before later same), refused]
        rfl
    · cases done
  · have refuses : ∀ later, SameHead text later →
        readCompound (.between before later) = .error ⟨.selector, before.length⟩ := by
      intro later same
      rw [readCompound, Cursor.between_rest, startsCompound_congr same, if_neg starts]
      rfl
    rw [refuses text rfl] at failed
    cases failed
    exact failsIn_here ⟨_, _, .starred .none⟩ (by simp) fun _ => refuses

/-! ## Complex selectors -/

/-- A row of compound selectors fails in one of them: `build` joins the first one to what stands on
its left. -/
theorem readRow_fails {build : Selector → Query} {leftText : Text}
    (builds : ∀ selector part, Grammar.Compound selector part →
      Grammar.Complex (build selector) (leftText ++ part))
    (failed : (readCompound (.between before text) >>= fun found =>
      readComplexFrom (build found.1) found.2) = .error failure) :
    FailsIn (fun cursor => readCompound cursor >>= fun found =>
        readComplexFrom (build found.1) found.2)
      (fun part => ∃ query, Grammar.Complex query (leftText ++ part)) before text failure := by
  -- The induction is on what is left to read: a compound selector that was read moves to the left.
  induction size : text.length using Nat.strongRecOn generalizing build leftText before text with
  | ind length ih =>
    rcases error_of_bind_error failed with compound | ⟨⟨selector, middle⟩, compound, further⟩
    · refine (readCompound_fails compound).begin ?_ fun later same refused => ?_
      · rintro part ⟨selector, derived⟩
        exact ⟨[], _, by simpa using builds selector part derived⟩
      · rw [refused]
        rfl
    · obtain ⟨word, rest, rfl, rfl, takes⟩ := readCompound_lookahead compound
      obtain ⟨derivedText, derived, split⟩ := readCompound_derives compound
      obtain rfl : word = derivedText := List.append_cancel_right split
      rcases readCombinator_cases rest with ⟨spaces, tail, rfl, stopped⟩ |
        ⟨combinator, separator, tail, rfl, separates, moved, joins⟩
      · rw [readComplexFrom_stop (stopped (before ++ word) tail rfl)] at further
        cases further
      · have shorter : tail.length < length := by
          simp only [List.length_append] at moved size
          omega
        rw [readComplexFrom_step (joins (before ++ word) tail rfl)] at further
        have buildsNext : ∀ next part, Grammar.Compound next part →
            Grammar.Complex (.combined combinator (build selector) (.simple next))
              (leftText ++ word ++ separator ++ part) := by
          intro next part derivedNext
          simpa using Grammar.Complex.joined (builds selector word derived) separates derivedNext
        have onward := ih tail.length shorter buildsNext further rfl
        have joinedFails : FailsIn (readComplexFrom (build selector))
            (fun part => ∃ query, Grammar.Complex query (leftText ++ (word ++ part)))
            (before ++ word) (separator ++ tail) failure := by
          refine (onward.mono ?_).after separator fun later same refused => ?_
          · rintro part ⟨query, derivedAll⟩
            exact ⟨query, by simpa using derivedAll⟩
          · exact (readComplexFrom_step (joins (before ++ word) later same)).trans refused
        exact joinedFails.after word fun later same refused =>
          (bind_eq_of_ok (takes later same)).trans refused

theorem readComplex_fails (failed : readComplex (.between before text) = .error failure) :
    FailsIn readComplex (fun part => ∃ query, Grammar.Complex query part) before text failure := by
  have builds : ∀ selector part, Grammar.Compound selector part →
      Grammar.Complex (.simple selector) ([] ++ part) := fun _ _ derived => .single derived
  exact readRow_fails builds failed

/-! ## Lists and whole texts -/

def IsList (text : Text) : Prop :=
  ∃ query list spaces, Grammar.Alternatives query list ∧ Blank spaces ∧ text = list ++ spaces

theorem readListFrom_step {left : Query} {spaces rest : Text} (before : Text) (blank : Blank spaces)
    (stops : Stops CodeUnit.isWhitespace rest) :
    readListFrom left (.between before (0x2C :: (spaces ++ rest))) =
      readComplex (.between (before ++ 0x2C :: spaces) rest) >>= fun found =>
        readListFrom (.union left found.1) found.2 := by
  cases complex : readComplex (.between (before ++ 0x2C :: spaces) rest) with
  | ok found => exact readListFrom_of_comma before blank stops complex
  | error wrong =>
    have arrived : ((Cursor.between before (0x2C :: (spaces ++ rest))).advance 1).skipWhitespace =
        .between (before ++ 0x2C :: spaces) rest := by
      rw [advance_one, Cursor.skipWhitespace_between _ spaces rest blank stops, List.append_assoc]
      rfl
    rw [readListFrom]
    split
    · rename_i empty
      cases empty
    · rename_i unit more same
      rw [if_pos (List.cons.inj same).1.symm]
      split
      · rename_i failed
        rw [arrived, complex] at failed
        cases failed
        rfl
      · rename_i success
        rw [arrived, complex] at success
        cases success

theorem readListFrom_of_stray {left : Query} {unit : CodeUnit} (stray : unit ≠ 0x2C)
    (before more : Text) :
    readListFrom left (.between before (unit :: more)) =
      .error ⟨.separatorOrSelector, before.length⟩ := by
  rw [readListFrom]
  split
  · rename_i empty
    cases empty
  · rename_i shows
    cases shows
    rw [if_neg stray]
    rfl

theorem readListFrom_fails_of_stray {left : Query} {unit : CodeUnit} {more : Text}
    (stray : unit ≠ 0x2C) (completes : ∃ ending, derives ending)
    (failed : readListFrom left (.between before (unit :: more)) = .error failure) :
    FailsIn (readListFrom left) derives before (unit :: more) failure := by
  rw [readListFrom_of_stray stray] at failed
  cases failed
  refine failsIn_here completes (by simp) fun _ later same => ?_
  obtain ⟨tail, rfl⟩ := List.head?_eq_some_iff.mp same
  exact readListFrom_of_stray stray before tail

/-- A list fails in one of its alternatives or after it: `build` unites the first one with what
stands on its left. -/
theorem readUnited_fails {build : Query → Query} {leftText : Text}
    (builds : ∀ right part, Grammar.Complex right part →
      Grammar.Alternatives (build right) (leftText ++ part))
    (failed : (readComplex (.between before text) >>= fun found =>
      readListFrom (build found.1) found.2) = .error failure) :
    FailsIn (fun cursor => readComplex cursor >>= fun found =>
        readListFrom (build found.1) found.2)
      (fun part => IsList (leftText ++ part)) before text failure := by
  induction size : text.length using Nat.strongRecOn generalizing build leftText before text with
  | ind length ih =>
    rcases error_of_bind_error failed with complex | ⟨⟨right, middle⟩, complex, further⟩
    · refine (readComplex_fails complex).begin ?_ fun later same refused => ?_
      · rintro part ⟨right, derived⟩
        exact ⟨[], _, _, [], builds right part derived, Text.allOf_nil _, by simp⟩
      · rw [refused]
        rfl
    · obtain ⟨word, rest, rfl, rfl, takes⟩ := readComplex_lookahead complex
      obtain ⟨rightText, final, derived, blank, split⟩ := readComplex_derives complex
      obtain rfl : word = rightText ++ final :=
        List.append_cancel_right (split.trans (List.append_assoc ..).symm)
      have listed := builds right rightText derived
      have listFails : FailsIn (readListFrom (build right))
          (fun part => IsList (leftText ++ (rightText ++ final ++ part)))
          (before ++ (rightText ++ final)) rest failure := by
        cases rest with
        | nil =>
          rw [readListFrom] at further
          cases further
        | cons unit more =>
          by_cases comma : unit = 0x2C
          · subst comma
            obtain ⟨gap, tail, rfl, blankGap, stops⟩ := Text.exists_run CodeUnit.isWhitespace more
            have buildsNext : ∀ next part, Grammar.Complex next part →
                Grammar.Alternatives (.union (build right) next)
                  (leftText ++ (rightText ++ (final ++ 0x2C :: gap)) ++ part) := by
              intro next part derivedNext
              simpa using Grammar.Alternatives.united listed blank blankGap derivedNext
            have shorter : tail.length < length := by
              simp only [List.length_append, List.length_cons] at size
              omega
            rw [readListFrom_step _ blankGap stops] at further
            refine ((ih tail.length shorter buildsNext further rfl).mono ?_).after (0x2C :: gap)
              fun later same refused => ?_
            · rintro part ⟨query, list, spaces, derivedAll, blankSpaces, whole⟩
              exact ⟨query, list, spaces, derivedAll, blankSpaces, by simpa using whole⟩
            · exact (readListFrom_step _ blankGap (stops.congr same)).trans refused
          · exact readListFrom_fails_of_stray comma
              ⟨[], build right, leftText ++ rightText, final, listed, blank, by simp⟩ further
      exact listFails.after _ fun later same refused =>
        (bind_eq_of_ok (takes later same)).trans refused

def readAlternatives (cursor : Cursor) : Reading Query :=
  readComplex cursor >>= fun found => readListFrom found.1 found.2

theorem read_eq (source : Text) :
    read source = readAlternatives (Cursor.between [] source).skipWhitespace :=
  rfl

theorem read_fails {source : Text} (failed : read source = .error failure) :
    FailsIn (fun cursor => readAlternatives cursor.skipWhitespace)
      (fun part => ∃ query, Grammar.Spells query part) [] source failure := by
  rw [read_eq] at failed
  refine FailsIn.skip readAlternatives failed fun spaces rest blank _ failed => ?_
  have builds : ∀ right part, Grammar.Complex right part →
      Grammar.Alternatives (id right) ([] ++ part) := fun _ _ derived => .single derived
  refine (readUnited_fails builds failed).mono ?_
  rintro part ⟨query, list, final, derived, blankFinal, rfl⟩
  exact ⟨query, .padded blank derived blankFinal⟩

/-! ## What an error says -/

/-- Only the messages about quotes that are missing begin with this word. -/
theorem Expectation.closing_iff (expectation : Expectation) :
    Text.ofString "closing" <+: expectation.text ↔
      ∃ quote, expectation = .closingQuote quote := by
  cases expectation with
  | closingQuote quote =>
    exact ⟨fun _ => ⟨quote, rfl⟩, fun _ => ⟨Text.ofString " " ++ [quote], rfl⟩⟩
  | _ =>
    refine iff_of_false (by decide) ?_
    rintro ⟨quote, other⟩
    cases other

/-- The beginning of a text that is read as a query. -/
def Viable (text : Text) : Prop := ∃ continuation query, parse (text ++ continuation) = .ok query

/-- Main result: the text before an error is the longest beginning that some query has, and the unit
at the error is the first one that none has there. A quoted value that is never closed is reported
at its opening quote. -/
theorem error_longest_viable {source : Text} {error : ParseError}
    (failed : parse source = .error error) :
    error.position ≤ source.length ∧ Viable (source.take error.position) ∧
      (¬ Text.ofString "closing" <+: error.expected → error.position < source.length →
        ¬ Viable (source.take (error.position + 1))) ∧
      (Text.ofString "closing" <+: error.expected →
        ∃ quote more, error.expected = Text.ofString "closing " ++ [quote] ∧
          source.drop error.position = quote :: more ∧ quote ∉ more) := by
  obtain ⟨failure, reads, rfl⟩ := ParseError.locate_eq_error.mp failed
  obtain ⟨word, rest, rfl, position, ⟨ending, query, spells⟩, refuses, unclosed⟩ := read_fails reads
  have place : failure.position = word.length := position
  simp only [ParseError.ofPosition, place, Expectation.closing_iff]
  refine ⟨by simp, ?_, ?_, ?_⟩
  · rw [List.take_left]
    exact ⟨ending, query, parse_eq_ok.mpr (read_of_spells spells)⟩
  · rintro unquoted inside ⟨continuation, other, success⟩
    have filled : rest ≠ [] := by
      rintro rfl
      simp at inside
    obtain ⟨unit, more, rfl⟩ := List.exists_cons_of_ne_nil filled
    have begins : (word ++ unit :: more).take (word.length + 1) ++ continuation =
        word ++ unit :: continuation := by
      rw [List.take_length_add_append, List.append_assoc]
      rfl
    have refused : read (word ++ unit :: continuation) = .error failure := by
      rw [read_eq]
      exact refuses (fun quote same => unquoted ⟨quote, same⟩) filled _ rfl
    rw [begins] at success
    rw [parse_eq_ok.mp success] at refused
    cases refused
  · rintro ⟨quote, same⟩
    obtain ⟨more, rfl, free⟩ := unclosed quote same
    exact ⟨quote, more, by rw [same]; rfl, List.drop_left, free⟩

theorem error_longest_viable_child :
    parse (Text.ofString "a >>b") =
        .error (ParseError.ofPosition (Text.ofString "a >>b") 3 (Text.ofString "a selector")) ∧
      Viable (Text.ofString "a >") ∧ ¬ Viable (Text.ofString "a >>") := by
  have failed : parse (Text.ofString "a >>b") =
      .error (ParseError.ofPosition (Text.ofString "a >>b") 3 (Text.ofString "a selector")) := by
    decide +kernel
  obtain ⟨_, viable, longest, _⟩ := error_longest_viable failed
  exact ⟨failed, viable, longest (by decide) (by decide)⟩

end HtmlFragments.Query
