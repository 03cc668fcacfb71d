import HtmlFragments.Proofs.Selector.Acceptance

/-! # What follows a part of a query

A part of a query that was read is read again before any text that begins with the same unit. -/
set_option autoImplicit false

namespace HtmlFragments.Query

open Text (Stops Blank)

def SameHead (rest other : Text) : Prop := other.head? = rest.head?

theorem SameHead.append (word : Text) {rest other : Text} (same : SameHead rest other) :
    SameHead (word ++ rest) (word ++ other) := by
  cases word with
  | nil => exact same
  | cons unit more => rfl

theorem startsCompound_congr {rest other : Text} (same : SameHead rest other) :
    startsCompound other = startsCompound rest := by
  cases other with
  | nil =>
    rw [List.head?_eq_none_iff.mp (Eq.symm same)]
  | cons unit more =>
    obtain ⟨tail, rfl⟩ := List.head?_eq_some_iff.mp (Eq.symm same)
    rfl

/-! ## Attribute tests -/

theorem readIdentifier_stops {expectation : Expectation} {before text name : Text} {after : Cursor}
    (success : readIdentifier expectation (.between before text) = .ok (name, after)) :
    ∃ rest, text = name ++ rest ∧ after = .between (before ++ name) rest ∧
      Grammar.Identifier name ∧ Stops CodeUnit.isIdentifierUnit rest := by
  obtain ⟨letters, rest, rfl, inside, stops⟩ := Text.exists_run CodeUnit.isIdentifierUnit text
  simp only [readIdentifier, Cursor.span_between _ before letters rest inside stops] at success
  split at success
  · cases success
  · rename_i filled
    cases success
    exact ⟨rest, rfl, rfl, ⟨by simpa using filled, inside⟩, stops⟩

theorem readQuotedValue_lookahead {quote : CodeUnit} {before text value : Text} {after : Cursor}
    (success : readQuotedValue quote (.between before (quote :: text)) = .ok (value, after)) :
    quote ∉ value ∧ ∃ rest, quote :: text = quote :: (value ++ [quote]) ++ rest ∧
      after = .between (before ++ quote :: (value ++ [quote])) rest := by
  obtain ⟨free, split⟩ := readQuotedValue_derives rfl success
  have whole : quote :: text = quote :: (value ++ [quote]) ++ after.rest := split
  rw [whole, readQuotedValue_between before free] at success
  exact ⟨free, after.rest, whole, (congrArg Prod.snd (Except.ok.inj success)).symm⟩

theorem readValue_lookahead {before text value : Text} {after : Cursor}
    (success : readValue (.between before text) = .ok (value, after)) :
    ∃ written rest, text = written ++ rest ∧ after = .between (before ++ written) rest ∧
      Grammar.Value value written ∧
      Cursor.Takes readValue before written value (SameHead rest) := by
  unfold readValue at success
  split at success
  · rename_i more shows
    have begins : text = 0x22 :: more := shows
    subst begins
    obtain ⟨free, rest, whole, finish⟩ := readQuotedValue_lookahead success
    exact ⟨_, rest, whole, finish, .doubleQuoted free,
      fun other _ => readQuotedValue_between before free⟩
  · rename_i more shows
    have begins : text = 0x27 :: more := shows
    subst begins
    obtain ⟨free, rest, whole, finish⟩ := readQuotedValue_lookahead success
    exact ⟨_, rest, whole, finish, .singleQuoted free,
      fun other _ => readQuotedValue_between before free⟩
  · obtain ⟨rest, rfl, rfl, identifier, stops⟩ := readIdentifier_stops success
    exact ⟨value, rest, rfl, rfl, .bare identifier,
      fun other same => readValue_between before (.bare identifier) (stops.congr same)⟩

theorem readAttributeTest_lookahead {before text : Text} {required : Attribute} {after : Cursor}
    (success : readAttributeTest (.between before text) = .ok (required, after)) :
    ∃ test rest, text = test ++ rest ∧ after = .between (before ++ test) rest ∧
      Grammar.AttributeTest required test := by
  obtain ⟨test, derived, split⟩ := readAttributeTest_derives success
  have whole : text = test ++ after.rest := split
  rw [whole, readAttributeTest_between before after.rest derived] at success
  exact ⟨test, after.rest, whole, (congrArg Prod.snd (Except.ok.inj success)).symm, derived⟩

/-! ## Conditions -/

theorem advance_one (before : Text) (unit : CodeUnit) (more : Text) :
    (Cursor.between before (unit :: more)).advance 1 = .between (before ++ [unit]) more :=
  Cursor.advance_between before [unit] more 1 rfl

theorem readCondition_lookahead {before more : Text} {unit : CodeUnit} {condition : Condition}
    {after : Cursor} (starts : startsCondition unit = true)
    (success : readCondition (.between before (unit :: more)) = .ok (condition, after)) :
    ∃ word rest, unit :: more = word ++ rest ∧ word.head? = some unit ∧
      after = .between (before ++ word) rest ∧
      Cursor.Takes readCondition before word condition (SameHead rest) := by
  unfold readCondition at success
  split at success
  · rename_i shows
    cases shows
    rw [advance_one] at success
    obtain ⟨⟨name, finish⟩, named, whole⟩ := ok_of_bind_ok success
    cases whole
    obtain ⟨rest, rfl, rfl, identifier, stops⟩ := readIdentifier_stops named
    refine ⟨0x23 :: name, rest, rfl, rfl, by simp, fun other same => ?_⟩
    exact readCondition_id_between before identifier (stops.congr same)
  · rename_i shows
    cases shows
    rw [advance_one] at success
    obtain ⟨⟨name, finish⟩, named, whole⟩ := ok_of_bind_ok success
    cases whole
    obtain ⟨rest, rfl, rfl, identifier, stops⟩ := readIdentifier_stops named
    refine ⟨0x2E :: name, rest, rfl, rfl, by simp, fun other same => ?_⟩
    exact readCondition_class_between before identifier (stops.congr same)
  · rename_i notId notClass
    have bracket : unit = 0x5B := by
      simp only [startsCondition, Bool.or_eq_true, beq_iff_eq] at starts
      rcases starts with (rfl | rfl) | bracket
      · exact absurd rfl (notId more)
      · exact absurd rfl (notClass more)
      · exact bracket
    subst bracket
    rw [advance_one] at success
    obtain ⟨⟨required, finish⟩, tested, whole⟩ := ok_of_bind_ok success
    cases whole
    obtain ⟨test, rest, rfl, rfl, derived⟩ := readAttributeTest_lookahead tested
    refine ⟨0x5B :: test, rest, rfl, rfl, by simp, fun other _ => ?_⟩
    exact readCondition_attribute_between before other derived

theorem readConditions_step {cursor : Cursor} {unit : CodeUnit} {more : Text}
    (shows : cursor.rest = unit :: more) (starts : startsCondition unit = true) :
    readConditions cursor =
      (do
        let (condition, after) ← readCondition cursor
        let (conditions, finish) ← readConditions after
        return (condition :: conditions, finish)) := by
  rw [readConditions]
  split
  · rename_i empty
    rw [shows] at empty
    cases empty
  · rename_i same
    rw [shows] at same
    cases same
    rw [if_pos starts]
    split <;> rename_i reads <;> rw [reads] <;> rfl

theorem readConditions_lookahead {before text : Text} {conditions : List Condition}
    {after : Cursor} (success : readConditions (.between before text) = .ok (conditions, after)) :
    ∃ word rest, text = word ++ rest ∧ after = .between (before ++ word) rest ∧
      Cursor.Takes readConditions before word conditions (SameHead rest) := by
  induction size : text.length using Nat.strongRecOn generalizing before text conditions with
  | ind length ih =>
    rcases Text.begins_or_stops startsCondition text with ⟨unit, more, rfl, starts⟩ | stops
    · rw [readConditions_step rfl starts] at success
      obtain ⟨⟨condition, middle⟩, first, further⟩ := ok_of_bind_ok success
      obtain ⟨⟨others, finish⟩, later, whole⟩ := ok_of_bind_ok further
      cases whole
      obtain ⟨word, tail, split, begins, rfl, reads⟩ := readCondition_lookahead starts first
      have shorter : tail.length < length := by
        rw [split] at size
        exact size ▸ Text.length_lt_of_head? begins [] tail
      obtain ⟨row, rest, rfl, rfl, readsRow⟩ := ih tail.length shorter later rfl
      refine ⟨word ++ row, rest, by simp [split], by simp, ?_⟩
      intro other same
      obtain ⟨letters, rfl⟩ := List.head?_eq_some_iff.mp begins
      have onward := readConditions_of_condition rfl starts (reads _ (same.append row))
        (readsRow other same)
      simpa using onward
    · rw [readConditions_of_stops stops] at success
      cases success
      refine ⟨[], text, rfl, by simp, fun other same => ?_⟩
      rw [List.nil_append, List.append_nil]
      exact readConditions_of_stops (stops.congr same)

/-! ## Compound selectors -/

theorem readTag_of_condition {cursor : Cursor} {unit : CodeUnit} {more : Text}
    (shows : cursor.rest = unit :: more) (starts : startsCondition unit = true) :
    readTag cursor = (none, cursor) := by
  have notNamed : CodeUnit.isIdentifierUnit unit = false := by
    simp only [startsCondition, Bool.or_eq_true, beq_iff_eq] at starts
    rcases starts with (rfl | rfl) | rfl <;> decide
  unfold readTag
  rw [shows]
  split
  · rename_i star
    rw [(List.cons.inj star).1] at starts
    exact absurd starts (by decide)
  · rename_i same
    cases same
    rw [notNamed]
    rfl
  · rfl

theorem readTag_lookahead {text : Text} (starts : startsCompound text = true) :
    ∃ tag word rest, text = word ++ rest ∧
      (∀ before other, SameHead rest other →
        readTag (.between before (word ++ other)) = (tag, .between (before ++ word) other)) ∧
      ∀ conditions row, word ++ row ≠ [] →
        Grammar.Conditions (conditions.filterMap Condition.id?)
          (conditions.filterMap Condition.class?) (conditions.filterMap Condition.attribute?) row →
        Grammar.Compound (selectorOf tag conditions) (word ++ row) := by
  cases text with
  | nil => cases starts
  | cons unit more =>
    by_cases star : unit = 0x2A
    · subst star
      refine ⟨none, [0x2A], more, rfl, ?_, fun conditions row _ derived => .starred derived⟩
      intro before other _
      exact congrArg (Prod.mk none) (advance_one before 0x2A other)
    by_cases named : CodeUnit.isIdentifierUnit unit = true
    · obtain ⟨name, rest, whole, inside, stops⟩ :=
        Text.exists_run CodeUnit.isIdentifierUnit (unit :: more)
      have identifier : Grammar.Identifier name := by
        refine ⟨?_, inside⟩
        rintro rfl
        rw [List.nil_append] at whole
        rw [← whole] at stops
        have outside : CodeUnit.isIdentifierUnit unit = false := stops
        rw [named] at outside
        cases outside
      refine ⟨some name, name, rest, whole, ?_, fun conditions row _ derived =>
        .tagged identifier derived⟩
      intro before other same
      exact (readTag_between before identifier (stops.congr same)).2
    · have condition : startsCondition unit = true := by
        simpa [startsCompound, star, named] using starts
      refine ⟨none, [], unit :: more, rfl, ?_, fun conditions row filled derived =>
        .untagged filled derived⟩
      intro before other same
      obtain ⟨others, rfl⟩ := List.head?_eq_some_iff.mp same
      rw [List.append_nil]
      exact readTag_of_condition rfl condition

theorem readCompound_of_tag {cursor afterTag : Cursor} {tag : Option Text}
    (starts : startsCompound cursor.rest = true) (tagged : readTag cursor = (tag, afterTag)) :
    readCompound cursor =
      readConditions afterTag >>= fun found => .ok (selectorOf tag found.1, found.2) := by
  rw [readCompound, if_pos starts, tagged]
  rfl

theorem readCompound_lookahead {before text : Text} {selector : Selector} {after : Cursor}
    (success : readCompound (.between before text) = .ok (selector, after)) :
    ∃ word rest, text = word ++ rest ∧ after = .between (before ++ word) rest ∧
      Cursor.Takes readCompound before word selector (SameHead rest) := by
  by_cases starts : startsCompound text = true
  · obtain ⟨tag, word, tail, rfl, tagged, -⟩ := readTag_lookahead starts
    rw [readCompound_of_tag starts (tagged before tail rfl)] at success
    obtain ⟨⟨conditions, finish⟩, found, whole⟩ := ok_of_bind_ok success
    cases whole
    obtain ⟨row, rest, rfl, rfl, reads⟩ := readConditions_lookahead found
    refine ⟨word ++ row, rest, by simp, by simp, fun other same => ?_⟩
    have sameTail := same.append row
    have startsOther : startsCompound (word ++ (row ++ other)) = true := by
      rw [startsCompound_congr (sameTail.append word)]
      exact starts
    rw [List.append_assoc, readCompound_of_parts startsOther (tagged before _ sameTail)
      (reads other same), List.append_assoc]
  · rw [readCompound, Cursor.between_rest, if_neg starts] at success
    cases success

/-! ## Complex selectors -/

theorem readCombinator_lookahead (text : Text) :
    ∃ combinator word rest, text = word ++ rest ∧ ∀ before other, SameHead rest other →
      readCombinator (.between before (word ++ other)) =
        (combinator, .between (before ++ word) other) := by
  obtain ⟨spaces, tail, rfl, blank, stops⟩ := Text.exists_run CodeUnit.isWhitespace text
  by_cases arrow : tail.head? = some 0x3E
  · obtain ⟨more, rfl⟩ := List.head?_eq_some_iff.mp arrow
    obtain ⟨gap, rest, rfl, blankGap, stopsRest⟩ := Text.exists_run CodeUnit.isWhitespace more
    refine ⟨some .child, spaces ++ 0x3E :: gap, rest, by simp, fun before other same => ?_⟩
    have skipped := Cursor.skipWhitespace_between before spaces (0x3E :: (gap ++ other)) blank
      (by rfl)
    have passed := Cursor.skipWhitespace_between (before ++ spaces ++ [0x3E]) gap other blankGap
      (stopsRest.congr same)
    rw [List.append_assoc, List.cons_append]
    unfold readCombinator
    rw [skipped]
    simp only [Cursor.between_rest, advance_one, passed]
    simp
  · have reads : ∀ before other, SameHead tail other →
        readCombinator (.between before (spaces ++ other)) =
          (if !spaces.isEmpty && startsCompound tail then some .descendant else none,
            .between (before ++ spaces) other) := by
      intro before other same
      have skipped := Cursor.skipWhitespace_between before spaces other blank (stops.congr same)
      unfold readCombinator
      rw [skipped]
      split
      · rename_i more begins
        have head : other.head? = some 0x3E := by
          rw [show other = 0x3E :: more from begins]
          rfl
        exact absurd (Eq.symm same ▸ head) arrow
      · have moved : ((before ++ spaces).length != before.length) = !spaces.isEmpty := by
          cases spaces <;> simp
        simp only [Cursor.between_position, Cursor.between_rest, startsCompound_congr same, moved]
        split <;> rfl
    exact ⟨_, spaces, tail, rfl, reads⟩

/-- Either nothing is joined, or a separator is passed over, alike before each text that begins with
the same unit. -/
theorem readCombinator_cases (text : Text) :
    (∃ word rest, text = word ++ rest ∧ ∀ before other, SameHead rest other →
      readCombinator (.between before (word ++ other)) = (none, .between (before ++ word) other)) ∨
    ∃ combinator separator rest, text = separator ++ rest ∧
      Grammar.Separator combinator separator ∧ rest.length < text.length ∧
      ∀ before other, SameHead rest other →
        readCombinator (.between before (separator ++ other)) =
          (some combinator, .between (before ++ separator) other) := by
  obtain ⟨combinator, word, rest, rfl, joins⟩ := readCombinator_lookahead text
  cases combinator with
  | none => exact .inl ⟨word, rest, rfl, joins⟩
  | some combinator =>
    have joined := joins [] rest rfl
    obtain ⟨separator, separates, split⟩ := readCombinator_some_derives joined
    obtain rfl : word = separator := List.append_cancel_right split
    exact .inr ⟨combinator, word, rest, rfl, separates, readCombinator_remaining_lt joined, joins⟩

theorem readComplexFrom_step {left : Query} {cursor next : Cursor} {combinator : Combinator}
    (joined : readCombinator cursor = (some combinator, next)) :
    readComplexFrom left cursor =
      readCompound next >>= fun found =>
        readComplexFrom (.combined combinator left (.simple found.1)) found.2 := by
  cases compound : readCompound next with
  | ok found => exact readComplexFrom_of_joined joined compound
  | error failure =>
    rw [readComplexFrom]
    split
    · rename_i stopped
      rw [joined] at stopped
      cases stopped
    · rename_i same
      rw [joined] at same
      cases same
      split
      · rename_i failed
        rw [compound] at failed
        cases failed
        rfl
      · rename_i success
        rw [compound] at success
        cases success

theorem readComplexFrom_stop {left : Query} {cursor after : Cursor}
    (stopped : readCombinator cursor = (none, after)) :
    readComplexFrom left cursor = .ok (left, after) := by
  rw [readComplexFrom]
  split
  · rename_i same
    rw [stopped] at same
    cases same
    rfl
  · rename_i joined
    rw [stopped] at joined
    cases joined

theorem readComplexFrom_lookahead {left query : Query} {before text : Text} {after : Cursor}
    (success : readComplexFrom left (.between before text) = .ok (query, after)) :
    ∃ word rest, text = word ++ rest ∧ after = .between (before ++ word) rest ∧
      Cursor.Takes (readComplexFrom left) before word query (SameHead rest) := by
  induction size : text.length using Nat.strongRecOn generalizing left before text with
  | ind length ih =>
    rcases readCombinator_cases text with ⟨spaces, tail, rfl, stopped⟩ |
      ⟨combinator, separator, tail, rfl, -, moved, joins⟩
    · rw [readComplexFrom_stop (stopped before tail rfl)] at success
      cases success
      exact ⟨spaces, tail, rfl, rfl, fun other same =>
        readComplexFrom_stop (stopped before other same)⟩
    · rw [readComplexFrom_step (joins before tail rfl)] at success
      obtain ⟨⟨selector, middle⟩, compound, further⟩ := ok_of_bind_ok success
      obtain ⟨word, rest, rfl, rfl, reads⟩ := readCompound_lookahead compound
      have shorter : rest.length < length := by
        simp only [List.length_append] at moved size
        omega
      obtain ⟨more, last, rfl, rfl, readsMore⟩ := ih rest.length shorter further rfl
      refine ⟨separator ++ (word ++ more), last, by simp, by simp, fun other same => ?_⟩
      have sameMore := same.append more
      have first := joins before (word ++ (more ++ other)) (sameMore.append word)
      have onward := readsMore other same
      simp only [List.append_assoc] at onward ⊢
      rw [readComplexFrom_of_joined first (reads _ sameMore), List.append_assoc, onward]

theorem readComplex_lookahead {query : Query} {before text : Text} {after : Cursor}
    (success : readComplex (.between before text) = .ok (query, after)) :
    ∃ word rest, text = word ++ rest ∧ after = .between (before ++ word) rest ∧
      Cursor.Takes readComplex before word query (SameHead rest) := by
  obtain ⟨⟨selector, middle⟩, compound, further⟩ := ok_of_bind_ok success
  obtain ⟨word, tail, rfl, rfl, reads⟩ := readCompound_lookahead compound
  obtain ⟨more, rest, rfl, rfl, readsMore⟩ := readComplexFrom_lookahead further
  refine ⟨word ++ more, rest, by simp, by simp, fun other same => ?_⟩
  have first : readComplex (.between before (word ++ (more ++ other))) = _ :=
    bind_eq_of_ok (reads _ (same.append more))
  have onward := readsMore other same
  simp only [List.append_assoc] at first onward ⊢
  exact first.trans onward

end HtmlFragments.Query
