import HtmlFragments.Proofs.Selector.Derivation

/-! # What the grammar derives is read

A reader takes the longest piece that it can. It loses no derivation: after each piece of a derived
text stands a unit that the piece cannot contain, or the end. Main result: a text is read as a query
exactly when it spells that query, so that no text spells two of them. -/
set_option autoImplicit false

namespace HtmlFragments.Query

open Text (Stops Blank)

def EndsCompound (rest : Text) : Prop :=
  Stops (fun unit => startsCondition unit || CodeUnit.isIdentifierUnit unit) rest

def EndsComplex : Text → Prop
  | [] => True
  | unit :: _ => unit = 0x2C

theorem EndsCompound.stops_identifier {rest : Text} (ends : EndsCompound rest) :
    Stops CodeUnit.isIdentifierUnit rest := by
  cases rest with
  | nil => trivial
  | cons unit more =>
    have neither : (startsCondition unit || CodeUnit.isIdentifierUnit unit) = false := ends
    exact (Bool.or_eq_false_iff.mp neither).2

theorem EndsCompound.stops_condition {rest : Text} (ends : EndsCompound rest) :
    Stops startsCondition rest := by
  cases rest with
  | nil => trivial
  | cons unit more =>
    have neither : (startsCondition unit || CodeUnit.isIdentifierUnit unit) = false := ends
    exact (Bool.or_eq_false_iff.mp neither).1

theorem endsCompound_cons {unit : CodeUnit} {more : Text}
    (separates : CodeUnit.isWhitespace unit = true ∨ unit = 0x3E ∨ unit = 0x2C) :
    EndsCompound (unit :: more) := by
  show (startsCondition unit || CodeUnit.isIdentifierUnit unit) = false
  rcases separates with space | rfl | rfl
  · rcases CodeUnit.isWhitespace_cases space with rfl | rfl | rfl | rfl | rfl <;> decide
  · decide
  · decide

theorem endsCompound_blank {spaces rest : Text} (blank : Blank spaces) (ends : EndsCompound rest) :
    EndsCompound (spaces ++ rest) := by
  cases spaces with
  | nil => exact ends
  | cons unit more => exact endsCompound_cons (.inl (blank unit List.mem_cons_self))

theorem EndsComplex.endsCompound {rest : Text} (ends : EndsComplex rest) : EndsCompound rest := by
  cases rest with
  | nil => trivial
  | cons unit more => exact endsCompound_cons (.inr (.inr ends))

theorem EndsComplex.stops_whitespace {rest : Text} (ends : EndsComplex rest) :
    Stops CodeUnit.isWhitespace rest := by
  cases rest with
  | nil => trivial
  | cons unit more =>
    have comma : unit = 0x2C := ends
    rw [comma]
    show CodeUnit.isWhitespace 0x2C = false
    decide

theorem stops_whitespace_of_identifier {name rest : Text} (identifier : Grammar.Identifier name) :
    Stops CodeUnit.isWhitespace (name ++ rest) := by
  obtain ⟨unit, more, rfl⟩ := List.exists_cons_of_ne_nil identifier.1
  have inside : CodeUnit.isIdentifierUnit unit = true := identifier.2 unit List.mem_cons_self
  show CodeUnit.isWhitespace unit = false
  rw [← Bool.not_eq_true]
  intro space
  have ended : EndsCompound [unit] := endsCompound_cons (.inl space)
  have outside : CodeUnit.isIdentifierUnit unit = false := ended.stops_identifier
  rw [inside] at outside
  cases outside

theorem stops_whitespace_of_value {value written rest : Text}
    (writes : Grammar.Value value written) : Stops CodeUnit.isWhitespace (written ++ rest) := by
  cases writes with
  | bare identifier => exact stops_whitespace_of_identifier identifier
  | doubleQuoted _ => rfl
  | singleQuoted _ => rfl

/-! ## Compound selectors -/

theorem readIdentifier_between (expectation : Expectation) (before : Text) {name rest : Text}
    (identifier : Grammar.Identifier name) (stops : Stops CodeUnit.isIdentifierUnit rest) :
    readIdentifier expectation (.between before (name ++ rest)) =
      .ok (name, .between (before ++ name) rest) := by
  simp only [readIdentifier, Cursor.span_between _ before name rest identifier.2 stops]
  exact if_neg (by simpa using identifier.1)

theorem readQuotedValue_between (before : Text) {quote : CodeUnit} {value rest : Text}
    (free : quote ∉ value) :
    readQuotedValue quote (.between before (quote :: (value ++ [quote]) ++ rest)) =
      .ok (value, .between (before ++ quote :: (value ++ [quote])) rest) := by
  have inside : Text.AllOf (· != quote) value := by
    intro unit member
    simpa using ne_of_mem_of_not_mem member free
  have closing := Cursor.advance_between (before ++ [quote] ++ value) [quote] rest 1 rfl
  have run := Cursor.span_between (· != quote) (before ++ [quote]) value (quote :: rest) inside
    (by simp [Stops])
  simp only [readQuotedValue, Cursor.advance_quote, run, Cursor.between_rest]
  simpa using closing

theorem readValue_between (before : Text) {value written rest : Text}
    (writes : Grammar.Value value written) (stops : Stops CodeUnit.isIdentifierUnit rest) :
    readValue (.between before (written ++ rest)) =
      .ok (value, .between (before ++ written) rest) := by
  cases writes with
  | doubleQuoted free => exact readQuotedValue_between before free
  | singleQuoted free => exact readQuotedValue_between before free
  | bare identifier =>
    obtain ⟨unit, more, rfl⟩ := List.exists_cons_of_ne_nil identifier.1
    have inside : CodeUnit.isIdentifierUnit unit = true := identifier.2 unit List.mem_cons_self
    rw [← readIdentifier_between .attributeValue before identifier stops]
    unfold readValue
    split
    · rename_i shows
      rw [(List.cons.inj shows).1] at inside
      exact absurd inside (by decide)
    · rename_i shows
      rw [(List.cons.inj shows).1] at inside
      exact absurd inside (by decide)
    · rfl

theorem readEquals_between (before rest : Text) :
    readEquals (.between before (0x3D :: rest)) = .ok (.between (before ++ [0x3D]) rest) :=
  congrArg Except.ok (Cursor.advance_between before [0x3D] rest 1 rfl)

theorem readClosingBracket_between (before rest : Text) :
    readClosingBracket (.between before (0x5D :: rest)) = .ok (.between (before ++ [0x5D]) rest) :=
  congrArg Except.ok (Cursor.advance_between before [0x5D] rest 1 rfl)

theorem readAttributeTest_between (before : Text) {required : Attribute} {test : Text} (rest : Text)
    (derived : Grammar.AttributeTest required test) :
    readAttributeTest (.between before (test ++ rest)) =
      .ok (required, .between (before ++ test) rest) := by
  cases derived with
  | @spaced name value written beforeName afterName beforeValue afterValue blankBeforeName
      identifier blankAfterName blankBeforeValue writes blankAfterValue =>
    have endsValue : EndsCompound (afterValue ++ 0x5D :: rest) :=
      endsCompound_blank blankAfterValue rfl
    have endsName : EndsCompound
        (afterName ++ 0x3D :: (beforeValue ++ (written ++ (afterValue ++ 0x5D :: rest)))) :=
      endsCompound_blank blankAfterName rfl
    simp only [List.append_assoc, List.cons_append, List.nil_append]
    rw [readAttributeTest, Cursor.skipWhitespace_between before beforeName _ blankBeforeName
        (stops_whitespace_of_identifier identifier),
      bind_eq_of_ok (readIdentifier_between _ _ identifier endsName.stops_identifier)]
    dsimp only
    rw [Cursor.skipWhitespace_between _ afterName _ blankAfterName (by rfl),
      bind_eq_of_ok (readEquals_between _ _),
      Cursor.skipWhitespace_between _ beforeValue _ blankBeforeValue
        (stops_whitespace_of_value writes),
      bind_eq_of_ok (readValue_between _ writes endsValue.stops_identifier)]
    dsimp only
    rw [Cursor.skipWhitespace_between _ afterValue _ blankAfterValue (by rfl),
      bind_eq_of_ok (readClosingBracket_between _ _)]
    simp only [List.append_assoc, List.cons_append, List.nil_append]
    rfl

theorem readConditions_of_stops {cursor : Cursor} (stops : Stops startsCondition cursor.rest) :
    readConditions cursor = .ok ([], cursor) := by
  rw [readConditions]
  split
  · rfl
  · rename_i unit rest shows
    rw [shows] at stops
    have ended : startsCondition unit = false := stops
    simp [ended]

theorem readConditions_of_condition {cursor after finish : Cursor} {unit : CodeUnit} {more : Text}
    {condition : Condition} {conditions : List Condition} (shows : cursor.rest = unit :: more)
    (starts : startsCondition unit = true) (first : readCondition cursor = .ok (condition, after))
    (others : readConditions after = .ok (conditions, finish)) :
    readConditions cursor = .ok (condition :: conditions, finish) := by
  rw [readConditions]
  split
  · rename_i empty
    rw [shows] at empty
    cases empty
  · rename_i other rest same
    rw [shows] at same
    rw [← (List.cons.inj same).1, if_pos starts]
    split
    · rename_i failed
      rw [first] at failed
      cases failed
    · rename_i found success
      rw [first] at success
      cases success
      rw [bind_eq_of_ok others]
      rfl

/-- What follows a condition in a row cannot belong to an identifier in it. -/
theorem Grammar.Conditions.ends_identifier {ids classes : List Text} {attributes : List Attribute}
    {text rest : Text} (row : Grammar.Conditions ids classes attributes text)
    (ends : EndsCompound rest) : Stops CodeUnit.isIdentifierUnit (text ++ rest) := by
  cases row with
  | none => exact ends.stops_identifier
  | idIs _ _ => rfl
  | classIs _ _ => rfl
  | attributeIs _ _ => rfl

theorem readCondition_id_between (before : Text) {name rest : Text}
    (identifier : Grammar.Identifier name) (stops : Stops CodeUnit.isIdentifierUnit rest) :
    readCondition (.between before (0x23 :: (name ++ rest))) =
      .ok (.idIs name, .between (before ++ 0x23 :: name) rest) := by
  have opening := Cursor.advance_between before [0x23] (name ++ rest) 1 rfl
  have named := readIdentifier_between .idValue (before ++ [0x23]) identifier stops
  rw [← opening, List.append_assoc] at named
  exact bind_eq_of_ok named

theorem readCondition_class_between (before : Text) {name rest : Text}
    (identifier : Grammar.Identifier name) (stops : Stops CodeUnit.isIdentifierUnit rest) :
    readCondition (.between before (0x2E :: (name ++ rest))) =
      .ok (.classIs name, .between (before ++ 0x2E :: name) rest) := by
  have opening := Cursor.advance_between before [0x2E] (name ++ rest) 1 rfl
  have named := readIdentifier_between .classValue (before ++ [0x2E]) identifier stops
  rw [← opening, List.append_assoc] at named
  exact bind_eq_of_ok named

theorem readCondition_attribute_between (before : Text) {required : Attribute} {test : Text}
    (rest : Text)
    (derived : Grammar.AttributeTest required test) :
    readCondition (.between before (0x5B :: (test ++ rest))) =
      .ok (.attributeIs required, .between (before ++ 0x5B :: test) rest) := by
  have opening := Cursor.advance_between before [0x5B] (test ++ rest) 1 rfl
  have tested := readAttributeTest_between (before ++ [0x5B]) rest derived
  rw [← opening, List.append_assoc] at tested
  exact bind_eq_of_ok tested

theorem readConditions_between (before : Text) {ids classes : List Text}
    {attributes : List Attribute} {text rest : Text}
    (row : Grammar.Conditions ids classes attributes text) (ends : EndsCompound rest) :
    ∃ conditions, readConditions (.between before (text ++ rest)) =
        .ok (conditions, .between (before ++ text) rest) ∧
      conditions.filterMap Condition.id? = ids ∧
      conditions.filterMap Condition.class? = classes ∧
      conditions.filterMap Condition.attribute? = attributes := by
  induction row generalizing before with
  | none =>
    refine ⟨[], ?_, rfl, rfl, rfl⟩
    rw [List.append_nil]
    exact readConditions_of_stops ends.stops_condition
  | @idIs name more ids classes attributes identifier row ih =>
    obtain ⟨others, read, rfl, rfl, rfl⟩ := ih (before ++ 0x23 :: name)
    refine ⟨.idIs name :: others, ?_, rfl, rfl, rfl⟩
    have first := readCondition_id_between before identifier (row.ends_identifier ends)
    rw [List.cons_append, List.append_assoc, readConditions_of_condition rfl rfl first read,
      List.append_assoc, List.cons_append]
  | @classIs name more ids classes attributes identifier row ih =>
    obtain ⟨others, read, rfl, rfl, rfl⟩ := ih (before ++ 0x2E :: name)
    refine ⟨.classIs name :: others, ?_, rfl, rfl, rfl⟩
    have first := readCondition_class_between before identifier (row.ends_identifier ends)
    rw [List.cons_append, List.append_assoc, readConditions_of_condition rfl rfl first read,
      List.append_assoc, List.cons_append]
  | @attributeIs required test more ids classes attributes tested row ih =>
    obtain ⟨others, read, rfl, rfl, rfl⟩ := ih (before ++ 0x5B :: test)
    refine ⟨.attributeIs required :: others, ?_, rfl, rfl, rfl⟩
    have first := readCondition_attribute_between before (more ++ rest) tested
    rw [List.cons_append, List.append_assoc, readConditions_of_condition rfl rfl first read,
      List.append_assoc, List.cons_append]

theorem readCompound_of_parts {cursor afterTag after : Cursor} {tag : Option Text}
    {conditions : List Condition} (starts : startsCompound cursor.rest = true)
    (tagged : readTag cursor = (tag, afterTag))
    (found : readConditions afterTag = .ok (conditions, after)) :
    readCompound cursor = .ok (selectorOf tag conditions, after) := by
  rw [readCompound, if_pos starts, tagged]
  exact bind_eq_of_ok found

theorem readTag_between (before : Text) {tag rest : Text} (identifier : Grammar.Identifier tag)
    (stops : Stops CodeUnit.isIdentifierUnit rest) :
    startsCompound (tag ++ rest) = true ∧
      readTag (.between before (tag ++ rest)) = (some tag, .between (before ++ tag) rest) := by
  have run := Cursor.span_between _ before tag rest identifier.2 stops
  obtain ⟨unit, more, rfl⟩ := List.exists_cons_of_ne_nil identifier.1
  have inside : CodeUnit.isIdentifierUnit unit = true := identifier.2 unit List.mem_cons_self
  refine ⟨by simp [startsCompound, inside], ?_⟩
  unfold readTag
  split
  · rename_i star
    rw [(List.cons.inj star).1] at inside
    exact absurd inside (by decide)
  · rename_i first others _ shows
    rw [← (List.cons.inj shows).1, if_pos inside, run]
  · rename_i empty
    cases empty

theorem readTag_of_conditions (before : Text) {ids classes : List Text}
    {attributes : List Attribute} {text : Text} (rest : Text) (nonempty : text ≠ [])
    (row : Grammar.Conditions ids classes attributes text) :
    startsCompound (text ++ rest) = true ∧
      readTag (.between before (text ++ rest)) = (none, .between before (text ++ rest)) := by
  cases row with
  | none => exact absurd rfl nonempty
  | idIs _ _ => exact ⟨rfl, rfl⟩
  | classIs _ _ => exact ⟨rfl, rfl⟩
  | attributeIs _ _ => exact ⟨rfl, rfl⟩

theorem readCompound_between (before : Text) {selector : Selector} {text rest : Text}
    (derived : Grammar.Compound selector text) (ends : EndsCompound rest) :
    readCompound (.between before (text ++ rest)) =
      .ok (selector, .between (before ++ text) rest) := by
  cases derived with
  | @tagged tag more ids classes attributes identifier row =>
    obtain ⟨conditions, read, rfl, rfl, rfl⟩ := readConditions_between (before ++ tag) row ends
    obtain ⟨starts, tagged⟩ := readTag_between before identifier (row.ends_identifier ends)
    rw [List.append_assoc, readCompound_of_parts starts tagged read, List.append_assoc]
    rfl
  | @starred more ids classes attributes row =>
    obtain ⟨conditions, read, rfl, rfl, rfl⟩ := readConditions_between (before ++ [0x2A]) row ends
    rw [← Cursor.advance_between before [0x2A] (more ++ rest) 1 rfl, List.append_assoc] at read
    exact readCompound_of_parts rfl rfl read
  | @untagged ids classes attributes _ nonempty row =>
    obtain ⟨conditions, read, rfl, rfl, rfl⟩ := readConditions_between before row ends
    obtain ⟨starts, untagged⟩ := readTag_of_conditions before rest nonempty row
    exact readCompound_of_parts starts untagged read

theorem Grammar.Compound.starts {selector : Selector} {text : Text}
    (derived : Grammar.Compound selector text) (rest : Text) (ends : EndsCompound rest) :
    startsCompound (text ++ rest) = true := by
  cases derived with
  | tagged identifier row =>
    rw [List.append_assoc]
    exact (readTag_between [] identifier (row.ends_identifier ends)).1
  | starred _ => rfl
  | untagged nonempty row => exact (readTag_of_conditions [] _ nonempty row).1

/-! ## Combinators and rows of compound selectors -/

theorem startsCompound_cons {unit : CodeUnit} {more : Text}
    (starts : startsCompound (unit :: more) = true) :
    CodeUnit.isWhitespace unit = false ∧ unit ≠ 0x3E := by
  have separated : ¬ (CodeUnit.isWhitespace unit = true ∨ unit = 0x3E ∨ unit = 0x2C) := by
    intro separates
    have ended : EndsCompound (unit :: more) := endsCompound_cons separates
    have neither : (startsCondition unit || CodeUnit.isIdentifierUnit unit) = false := ended
    have notStar : unit ≠ 0x2A := by
      rintro rfl
      exact absurd separates (by decide)
    simp [startsCompound, notStar, Bool.or_eq_false_iff.mp neither] at starts
  refine ⟨?_, fun arrow => separated (.inr (.inl arrow))⟩
  rw [← Bool.not_eq_true]
  exact fun space => separated (.inl space)

theorem stops_whitespace_of_starts {text : Text} (starts : startsCompound text = true) :
    Stops CodeUnit.isWhitespace text := by
  cases text with
  | nil => trivial
  | cons unit more => exact (startsCompound_cons starts).1

theorem readCombinator_between (before : Text) {combinator : Combinator} {separator rest : Text}
    (separates : Grammar.Separator combinator separator) (starts : startsCompound rest = true) :
    readCombinator (.between before (separator ++ rest)) =
      (some combinator, .between (before ++ separator) rest) := by
  have stops := stops_whitespace_of_starts starts
  cases separates with
  | @child spaces after blankBefore blankAfter =>
    have skipped := Cursor.skipWhitespace_between before spaces (0x3E :: (after ++ rest))
      blankBefore (by rfl)
    have passed := Cursor.advance_between (before ++ spaces) [0x3E] (after ++ rest) 1 rfl
    rw [List.append_assoc, List.cons_append]
    unfold readCombinator
    rw [skipped]
    simp only [Cursor.between_rest]
    rw [← List.singleton_append, passed,
      Cursor.skipWhitespace_between _ after rest blankAfter stops]
    simp
  | descendant spaced blank =>
    obtain ⟨unit, more, rfl⟩ : ∃ unit more, rest = unit :: more := by
      cases rest with
      | nil => cases starts
      | cons unit more => exact ⟨unit, more, rfl⟩
    unfold readCombinator
    rw [Cursor.skipWhitespace_between before separator _ blank stops]
    split
    · rename_i arrow
      exact absurd (List.cons.inj arrow).1 (startsCompound_cons starts).2
    · simp [starts, spaced]

theorem readCombinator_of_ends (before : Text) {spaces rest : Text} (blank : Blank spaces)
    (ends : EndsComplex rest) :
    readCombinator (.between before (spaces ++ rest)) =
      (none, .between (before ++ spaces) rest) := by
  unfold readCombinator
  rw [Cursor.skipWhitespace_between before spaces rest blank ends.stops_whitespace]
  cases rest with
  | nil => simp [startsCompound]
  | cons unit more =>
    have comma : unit = 0x2C := ends
    subst comma
    have ended : startsCompound (0x2C :: more) = false := rfl
    simp [ended]

theorem readComplexFrom_of_joined {left : Query} {cursor next after : Cursor}
    {combinator : Combinator} {selector : Selector}
    (joined : readCombinator cursor = (some combinator, next))
    (compound : readCompound next = .ok (selector, after)) :
    readComplexFrom left cursor =
      readComplexFrom (.combined combinator left (.simple selector)) after := by
  rw [readComplexFrom]
  split
  · rename_i stopped
    rw [joined] at stopped
    cases stopped
  · rename_i same
    rw [joined] at same
    cases same
    split
    · rename_i failed
      rw [compound] at failed
      cases failed
    · rename_i success
      rw [compound] at success
      cases success
      rfl

theorem readComplexFrom_of_ends (before : Text) {left : Query} {spaces rest : Text}
    (blank : Blank spaces) (ends : EndsComplex rest) :
    readComplexFrom left (.between before (spaces ++ rest)) =
      .ok (left, .between (before ++ spaces) rest) := by
  have stopped := readCombinator_of_ends before blank ends
  rw [readComplexFrom]
  split
  · rename_i same
    rw [stopped] at same
    cases same
    rfl
  · rename_i joined
    rw [stopped] at joined
    cases joined

theorem readComplex_between (before : Text) {query : Query} {text rest : Text}
    (derived : Grammar.Complex query text) (ends : EndsCompound rest) :
    readComplex (.between before (text ++ rest)) =
      readComplexFrom query (.between (before ++ text) rest) := by
  induction derived generalizing rest with
  | single compound => exact bind_eq_of_ok (readCompound_between before compound ends)
  | @joined left combinator selector leftText separator text derived separates compound ih =>
    have starts := compound.starts _ ends
    have endsLeft : EndsCompound (separator ++ (text ++ rest)) := by
      cases separates with
      | child blankBefore _ =>
        rw [List.append_assoc]
        exact endsCompound_blank blankBefore (endsCompound_cons (.inr (.inl rfl)))
      | descendant spaced blank =>
        obtain ⟨unit, more, rfl⟩ := List.exists_cons_of_ne_nil spaced
        exact endsCompound_cons (.inl (blank unit List.mem_cons_self))
    simp only [List.append_assoc]
    rw [ih endsLeft, readComplexFrom_of_joined (readCombinator_between _ separates starts)
      (readCompound_between _ compound ends)]
    simp only [List.append_assoc]

/-! ## Lists and whole texts -/

theorem readListFrom_of_comma (before : Text) {left right : Query} {spaces rest : Text}
    {after : Cursor} (blank : Blank spaces) (stops : Stops CodeUnit.isWhitespace rest)
    (read : readComplex (.between (before ++ 0x2C :: spaces) rest) = .ok (right, after)) :
    readListFrom left (.between before (0x2C :: (spaces ++ rest))) =
      readListFrom (.union left right) after := by
  have passed := Cursor.advance_between before [0x2C] (spaces ++ rest) 1 rfl
  have arrived : ((Cursor.between before (0x2C :: (spaces ++ rest))).advance 1).skipWhitespace =
      .between (before ++ 0x2C :: spaces) rest := by
    rw [← List.singleton_append, passed, Cursor.skipWhitespace_between _ spaces rest blank stops,
      List.append_assoc]
    rfl
  rw [readListFrom]
  split
  · rename_i empty
    cases empty
  · rename_i unit more same
    rw [if_pos (List.cons.inj same).1.symm]
    split
    · rename_i failed
      rw [arrived, read] at failed
      cases failed
    · rename_i success
      rw [arrived, read] at success
      cases success
      rfl

theorem Grammar.Complex.stops_whitespace {query : Query} {text rest : Text}
    (derived : Grammar.Complex query text) : Stops CodeUnit.isWhitespace (text ++ rest) := by
  induction derived generalizing rest with
  | single compound =>
    have starts := compound.starts [] trivial
    cases compound with
    | tagged identifier _ =>
      rw [List.append_assoc]
      exact stops_whitespace_of_identifier identifier
    | starred _ => rfl
    | untagged nonempty row =>
      exact stops_whitespace_of_starts (readTag_of_conditions [] _ nonempty row).1
  | joined _ _ _ ih =>
    rw [List.append_assoc]
    exact ih

theorem Grammar.Alternatives.stops_whitespace {query : Query} {text rest : Text}
    (derived : Grammar.Alternatives query text) : Stops CodeUnit.isWhitespace (text ++ rest) := by
  induction derived generalizing rest with
  | single complex => exact complex.stops_whitespace
  | united _ _ _ _ ih =>
    rw [List.append_assoc]
    exact ih

theorem readAlternatives_between (before : Text) {query : Query} {text spaces rest : Text}
    (derived : Grammar.Alternatives query text) (blank : Blank spaces) (ends : EndsComplex rest) :
    (readComplex (.between before (text ++ (spaces ++ rest))) >>=
        fun found => readListFrom found.1 found.2) =
      readListFrom query (.between (before ++ (text ++ spaces)) rest) := by
  induction derived generalizing spaces rest with
  | single complex =>
    rw [readComplex_between before complex (endsCompound_blank blank ends.endsCompound),
      bind_eq_of_ok (readComplexFrom_of_ends _ blank ends), List.append_assoc]
  | @united left right leftText spacesBefore spacesAfter text derived blankBefore blankAfter
      complex ih =>
    have read : readComplex (.between
        (before ++ (leftText ++ spacesBefore) ++ 0x2C :: spacesAfter) (text ++ (spaces ++ rest))) =
        .ok (right, .between (before ++ (leftText ++ spacesBefore) ++ 0x2C :: spacesAfter ++ text ++
          spaces) rest) := by
      rw [readComplex_between _ complex (endsCompound_blank blank ends.endsCompound),
        readComplexFrom_of_ends _ blank ends]
    have comma : EndsComplex (0x2C :: (spacesAfter ++ (text ++ (spaces ++ rest)))) := rfl
    have reached := ih blankBefore comma
    simp only [List.append_assoc, List.cons_append]
    rw [reached, readListFrom_of_comma _ blankAfter complex.stops_whitespace read]
    simp only [List.append_assoc, List.cons_append]

theorem read_of_spells {source : Text} {query : Query} (spells : Grammar.Spells query source) :
    read source = .ok query := by
  cases spells with
  | @padded before text after blankBefore alternatives blankAfter =>
    have opening := Cursor.skipWhitespace_between [] before (text ++ after) blankBefore
      alternatives.stops_whitespace
    have nothing : EndsComplex [] := trivial
    have reached := readAlternatives_between before alternatives blankAfter nothing
    rw [List.append_nil] at reached
    calc read (before ++ (text ++ after))
        = readComplex (Cursor.between [] (before ++ (text ++ after))).skipWhitespace >>=
            fun found => readListFrom found.1 found.2 := rfl
      _ = readListFrom query (.between (before ++ (text ++ after)) []) := by
          rw [opening, List.nil_append, reached]
      _ = .ok query := by
          rw [readListFrom]
          rfl

/-- A text is read as a query exactly when the grammar derives the query for it; a text that the
grammar derives for no query is refused, and none is derived for two. -/
theorem parse_eq_ok_iff_spells :
    (∀ (source : Text) (query : Query),
      parse source = .ok query ↔ Grammar.Spells query source) ∧
    ∀ (source : Text) (query other : Query),
      Grammar.Spells query source → Grammar.Spells other source → query = other := by
  have accepted : ∀ (source : Text) (query : Query),
      parse source = .ok query ↔ Grammar.Spells query source := by
    intro source query
    exact parse_eq_ok.trans ⟨read_derives, read_of_spells⟩
  refine ⟨accepted, ?_⟩
  intro source query other spells spellsOther
  have parsed := (accepted source query).mpr spells
  rw [(accepted source other).mpr spellsOther] at parsed
  exact (Except.ok.inj parsed).symm

end HtmlFragments.Query
