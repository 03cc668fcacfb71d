import HtmlFragments.Proofs.Selector.Grammar
import HtmlFragments.Selector.Reading

/-! # What readers of queries accept

Each reader that succeeds has passed over a text that the grammar derives for the value it returns.
The text is the difference between what was left before and what is left after. -/
set_option autoImplicit false

namespace HtmlFragments.Query

theorem readIdentifier_derives {expectation : Expectation} {cursor after : Cursor} {name : Text}
    (success : readIdentifier expectation cursor = .ok (name, after)) :
    Grammar.Identifier name ∧ cursor.rest = name ++ after.rest := by
  obtain ⟨split, inside, _, _⟩ := cursor.span_eq CodeUnit.isIdentifierUnit
  simp only [readIdentifier] at success
  split at success
  · cases success
  · rename_i nonempty
    have found := Except.ok.inj success
    rw [found] at split inside nonempty
    exact ⟨⟨by simpa using nonempty, inside⟩, split⟩

theorem readQuotedValue_derives {quote : CodeUnit} {cursor after : Cursor} {rest value : Text}
    (opening : cursor.rest = quote :: rest)
    (success : readQuotedValue quote cursor = .ok (value, after)) :
    quote ∉ value ∧ cursor.rest = quote :: (value ++ [quote]) ++ after.rest := by
  obtain ⟨split, inside, outside, _⟩ := (cursor.advance 1).span_eq (· != quote)
  have skipped := Cursor.rest_advance_one opening
  simp only [readQuotedValue] at success
  split at success
  · cases success
  · rename_i unit more closing
    rw [closing] at split outside
    have closed : unit = quote := by simpa [Text.Stops] using outside
    cases success
    refine ⟨?_, ?_⟩
    · intro member
      simpa using inside quote member
    · rw [opening, ← skipped, split, closed, Cursor.rest_advance_one closing]
      simp

theorem readValue_derives {cursor after : Cursor} {value : Text}
    (success : readValue cursor = .ok (value, after)) :
    ∃ written, Grammar.Value value written ∧ cursor.rest = written ++ after.rest := by
  unfold readValue at success
  split at success
  · rename_i opening
    obtain ⟨free, split⟩ := readQuotedValue_derives opening success
    exact ⟨_, .doubleQuoted free, split⟩
  · rename_i opening
    obtain ⟨free, split⟩ := readQuotedValue_derives opening success
    exact ⟨_, .singleQuoted free, split⟩
  · obtain ⟨named, split⟩ := readIdentifier_derives success
    exact ⟨_, .bare named, split⟩

theorem readEquals_derives {cursor after : Cursor} (success : readEquals cursor = .ok after) :
    cursor.rest = 0x3D :: after.rest := by
  unfold readEquals at success
  split at success
  · rename_i shows
    cases success
    rw [shows, Cursor.rest_advance_one shows]
  · cases success

theorem readClosingBracket_derives {cursor after : Cursor}
    (success : readClosingBracket cursor = .ok after) : cursor.rest = 0x5D :: after.rest := by
  unfold readClosingBracket at success
  split at success
  · rename_i shows
    cases success
    rw [shows, Cursor.rest_advance_one shows]
  · cases success

theorem readAttributeTest_derives {cursor after : Cursor} {required : Attribute}
    (success : readAttributeTest cursor = .ok (required, after)) :
    ∃ test, Grammar.AttributeTest required test ∧ cursor.rest = test ++ after.rest := by
  obtain ⟨⟨name, afterName⟩, named, success⟩ := ok_of_bind_ok success
  obtain ⟨afterEquals, equals, success⟩ := ok_of_bind_ok success
  obtain ⟨⟨value, afterValue⟩, valued, success⟩ := ok_of_bind_ok success
  obtain ⟨finish, closed, success⟩ := ok_of_bind_ok success
  cases success
  obtain ⟨beforeName, blankBeforeName, splitName, _⟩ := cursor.skipWhitespace_eq
  obtain ⟨identifier, splitIdentifier⟩ := readIdentifier_derives named
  obtain ⟨beforeEquals, blankAfterName, splitEquals, _⟩ := afterName.skipWhitespace_eq
  obtain ⟨beforeValue, blankBeforeValue, splitValue, _⟩ := afterEquals.skipWhitespace_eq
  obtain ⟨written, writes, splitWritten⟩ := readValue_derives valued
  obtain ⟨beforeBracket, blankAfterValue, splitBracket, _⟩ := afterValue.skipWhitespace_eq
  refine ⟨_, .spaced blankBeforeName identifier blankAfterName blankBeforeValue writes
    blankAfterValue, ?_⟩
  rw [splitName, splitIdentifier, splitEquals, readEquals_derives equals, splitValue, splitWritten,
    splitBracket, readClosingBracket_derives closed]
  simp only [List.append_assoc, List.cons_append, List.nil_append]

theorem readCondition_derives {cursor after : Cursor} {condition : Condition} {unit : CodeUnit}
    {more : Text} (shows : cursor.rest = unit :: more) (starts : startsCondition unit = true)
    (success : readCondition cursor = .ok (condition, after)) :
    ∃ text, cursor.rest = text ++ after.rest ∧ text ≠ [] ∧
      ∀ (conditions : List Condition) (rest : Text),
        Grammar.Conditions (conditions.filterMap Condition.id?)
          (conditions.filterMap Condition.class?) (conditions.filterMap Condition.attribute?) rest →
        Grammar.Conditions ((condition :: conditions).filterMap Condition.id?)
          ((condition :: conditions).filterMap Condition.class?)
          ((condition :: conditions).filterMap Condition.attribute?) (text ++ rest) := by
  have skipped := Cursor.rest_advance_one shows
  unfold readCondition at success
  split at success
  · rename_i opening
    obtain ⟨⟨value, finish⟩, found, success⟩ := ok_of_bind_ok success
    cases success
    obtain ⟨identifier, split⟩ := readIdentifier_derives found
    refine ⟨0x23 :: value, ?_, by simp, fun conditions rest row => .idIs identifier row⟩
    rw [shows] at opening ⊢
    rw [(List.cons.inj opening).1, ← skipped, split]
    rfl
  · rename_i opening
    obtain ⟨⟨value, finish⟩, found, success⟩ := ok_of_bind_ok success
    cases success
    obtain ⟨identifier, split⟩ := readIdentifier_derives found
    refine ⟨0x2E :: value, ?_, by simp, fun conditions rest row => .classIs identifier row⟩
    rw [shows] at opening ⊢
    rw [(List.cons.inj opening).1, ← skipped, split]
    rfl
  · rename_i notId notClass
    obtain ⟨⟨required, finish⟩, found, success⟩ := ok_of_bind_ok success
    cases success
    obtain ⟨test, tested, split⟩ := readAttributeTest_derives found
    have bracket : unit = 0x5B := by
      simp only [startsCondition, Bool.or_eq_true, beq_iff_eq] at starts
      rcases starts with (id | dot) | bracket
      · exact absurd (id ▸ shows) (notId more)
      · exact absurd (dot ▸ shows) (notClass more)
      · exact bracket
    refine ⟨0x5B :: test, ?_, by simp, fun conditions rest row => .attributeIs tested row⟩
    rw [shows, bracket, ← skipped, split]
    rfl

theorem readConditions_derives {cursor after : Cursor} {conditions : List Condition}
    (success : readConditions cursor = .ok (conditions, after)) :
    ∃ text, cursor.rest = text ++ after.rest ∧
      (∀ unit more, cursor.rest = unit :: more → startsCondition unit = true → text ≠ []) ∧
      Grammar.Conditions (conditions.filterMap Condition.id?)
        (conditions.filterMap Condition.class?) (conditions.filterMap Condition.attribute?)
        text := by
  fun_induction readConditions cursor generalizing conditions with
  | case1 cursor shows =>
    cases success
    refine ⟨[], rfl, ?_, .none⟩
    intro unit more begins
    rw [shows] at begins
    cases begins
  | case2 => cases success
  | case3 cursor unit rest shows starts condition next read ih =>
    obtain ⟨⟨others, finish⟩, found, success⟩ := ok_of_bind_ok success
    cases success
    obtain ⟨text, split, nonempty, extend⟩ := readCondition_derives shows starts read
    obtain ⟨further, splitFurther, _, row⟩ := ih found
    refine ⟨text ++ further, ?_, ?_, extend others further row⟩
    · rw [split, splitFurther, List.append_assoc]
    · intro _ _ _ _
      simp [nonempty]
  | case4 cursor unit rest shows stops =>
    cases success
    refine ⟨[], rfl, ?_, .none⟩
    intro first more begins starts
    rw [shows] at begins
    rw [(List.cons.inj begins).1] at stops
    exact absurd starts stops

/-- The three ways in which a compound selector begins. -/
theorem readTag_cases {cursor : Cursor} (starts : startsCompound cursor.rest = true) :
    (∃ rest, cursor.rest = 0x2A :: rest ∧ readTag cursor = (none, cursor.advance 1)) ∨
      (∃ tag afterTag, Grammar.Identifier tag ∧ cursor.rest = tag ++ afterTag.rest ∧
        readTag cursor = (some tag, afterTag)) ∨
      ∃ unit rest, cursor.rest = unit :: rest ∧ startsCondition unit = true ∧
        readTag cursor = (none, cursor) := by
  unfold readTag
  split
  · rename_i rest star
    exact .inl ⟨rest, star, rfl⟩
  · rename_i unit rest notStar shows
    by_cases named : CodeUnit.isIdentifierUnit unit = true
    · obtain ⟨split, inside, _, _⟩ := cursor.span_eq CodeUnit.isIdentifierUnit
      have nonempty : (cursor.span CodeUnit.isIdentifierUnit).1 ≠ [] := by
        simp [Cursor.span, shows, named]
      exact .inr (.inl ⟨_, _, ⟨nonempty, inside⟩, split, if_pos named⟩)
    · have condition : startsCondition unit = true := by
        simp only [shows, startsCompound, named, Bool.or_false, Bool.or_eq_true,
          beq_iff_eq] at starts
        rcases starts with star | condition
        · exact absurd star notStar
        · exact condition
      exact .inr (.inr ⟨unit, rest, shows, condition, if_neg named⟩)
  · rename_i empty
    simp [empty, startsCompound] at starts

theorem readCompound_derives {cursor after : Cursor} {selector : Selector}
    (success : readCompound cursor = .ok (selector, after)) :
    ∃ text, Grammar.Compound selector text ∧ cursor.rest = text ++ after.rest := by
  unfold readCompound at success
  split at success
  · rename_i starts
    rcases readTag_cases starts with ⟨rest, star, tag⟩ | ⟨name, afterTag, named, splitTag, tag⟩ |
      ⟨unit, rest, shows, condition, tag⟩
    · rw [tag] at success
      obtain ⟨⟨conditions, finish⟩, found, success⟩ := ok_of_bind_ok success
      cases success
      obtain ⟨text, split, _, row⟩ := readConditions_derives found
      refine ⟨0x2A :: text, .starred row, ?_⟩
      rw [star, ← Cursor.rest_advance_one star, split]
      rfl
    · rw [tag] at success
      obtain ⟨⟨conditions, finish⟩, found, success⟩ := ok_of_bind_ok success
      cases success
      obtain ⟨text, split, _, row⟩ := readConditions_derives found
      refine ⟨name ++ text, .tagged named row, ?_⟩
      rw [splitTag, split, List.append_assoc]
    · rw [tag] at success
      obtain ⟨⟨conditions, finish⟩, found, success⟩ := ok_of_bind_ok success
      cases success
      obtain ⟨text, split, nonempty, row⟩ := readConditions_derives found
      exact ⟨text, .untagged (nonempty unit rest shows condition) row, split⟩
  · cases success

theorem readCombinator_some_derives {cursor next : Cursor} {combinator : Combinator}
    (success : readCombinator cursor = (some combinator, next)) :
    ∃ separator, Grammar.Separator combinator separator ∧
      cursor.rest = separator ++ next.rest := by
  obtain ⟨spaces, blank, split, _, moved⟩ := cursor.skipWhitespace_eq
  unfold readCombinator at success
  split at success
  · rename_i more arrow
    cases success
    obtain ⟨after, blankAfter, splitAfter, _⟩ :=
      (cursor.skipWhitespace.advance 1).skipWhitespace_eq
    refine ⟨_, .child blank blankAfter, ?_⟩
    rw [Cursor.rest_advance_one arrow] at splitAfter
    rw [split, arrow, splitAfter, List.append_assoc]
    rfl
  · split at success
    · rename_i joins
      cases success
      have spaced : spaces ≠ [] := by
        intro none
        simp [moved, none] at joins
      exact ⟨spaces, .descendant spaced blank, split⟩
    · cases success

theorem readCombinator_none_derives {cursor next : Cursor}
    (success : readCombinator cursor = (none, next)) :
    ∃ spaces, Text.Blank spaces ∧ cursor.rest = spaces ++ next.rest := by
  obtain ⟨spaces, blank, split, _, _⟩ := cursor.skipWhitespace_eq
  unfold readCombinator at success
  split at success
  · cases success
  · split at success
    · cases success
    · cases success
      exact ⟨spaces, blank, split⟩

/-- Whatever stands on the left, joining extends its text and passes over final whitespace. -/
theorem readComplexFrom_derives {left query : Query} {cursor after : Cursor} {leftText : Text}
    (derived : Grammar.Complex left leftText)
    (success : readComplexFrom left cursor = .ok (query, after)) :
    ∃ text spaces, Grammar.Complex query (leftText ++ text) ∧ Text.Blank spaces ∧
      cursor.rest = text ++ (spaces ++ after.rest) := by
  fun_induction readComplexFrom left cursor generalizing leftText with
  | case1 left cursor finish stopped =>
    cases success
    obtain ⟨spaces, blank, split⟩ := readCombinator_none_derives stopped
    exact ⟨[], spaces, by simpa using derived, blank, split⟩
  | case2 => cases success
  | case3 left cursor combinator next joined selector finish compound ih =>
    obtain ⟨separator, separates, split⟩ := readCombinator_some_derives joined
    obtain ⟨right, derivedRight, splitRight⟩ := readCompound_derives compound
    obtain ⟨text, spaces, whole, blank, rest⟩ :=
      ih (.joined derived separates derivedRight) success
    refine ⟨separator ++ (right ++ text), spaces, ?_, blank, ?_⟩
    · simpa only [List.append_assoc] using whole
    · rw [split, splitRight, rest]
      simp only [List.append_assoc]

theorem readComplex_derives {query : Query} {cursor after : Cursor}
    (success : readComplex cursor = .ok (query, after)) :
    ∃ text spaces, Grammar.Complex query text ∧ Text.Blank spaces ∧
      cursor.rest = text ++ (spaces ++ after.rest) := by
  obtain ⟨⟨selector, next⟩, compound, success⟩ := ok_of_bind_ok success
  obtain ⟨first, derived, split⟩ := readCompound_derives compound
  obtain ⟨text, spaces, whole, blank, rest⟩ := readComplexFrom_derives (.single derived) success
  refine ⟨first ++ text, spaces, whole, blank, ?_⟩
  rw [split, rest, List.append_assoc]

theorem readListFrom_derives {left query : Query} {cursor : Cursor} {leftText spaces : Text}
    (derived : Grammar.Alternatives left leftText) (blank : Text.Blank spaces)
    (success : readListFrom left cursor = .ok query) :
    ∃ text after, Grammar.Alternatives query text ∧ Text.Blank after ∧
      leftText ++ (spaces ++ cursor.rest) = text ++ after := by
  fun_induction readListFrom left cursor generalizing leftText spaces with
  | case1 left cursor shows =>
    cases success
    exact ⟨leftText, spaces, derived, blank, by simp [shows]⟩
  | case2 => cases success
  | case3 left cursor rest right next read shows ih =>
    obtain ⟨before, blankBefore, splitBefore, _⟩ := (cursor.advance 1).skipWhitespace_eq
    obtain ⟨rightText, further, derivedRight, blankFurther, split⟩ := readComplex_derives read
    obtain ⟨text, after, whole, blankAfter, same⟩ :=
      ih (.united derived blank blankBefore derivedRight) blankFurther success
    refine ⟨text, after, whole, blankAfter, ?_⟩
    rw [← same, shows, ← Cursor.rest_advance_one shows, splitBefore, split]
    simp only [List.append_assoc, List.cons_append]
  | case4 => cases success

theorem read_derives {source : Text} {query : Query} (success : read source = .ok query) :
    Grammar.Spells query source := by
  obtain ⟨⟨left, after⟩, complex, success⟩ := ok_of_bind_ok success
  obtain ⟨before, blankBefore, split, _⟩ := (Cursor.start source).skipWhitespace_eq
  obtain ⟨leftText, spaces, derived, blank, rest⟩ := readComplex_derives complex
  obtain ⟨text, final, whole, blankFinal, same⟩ :=
    readListFrom_derives (.single derived) blank success
  have parts : source = before ++ (text ++ final) := by
    rw [← same, ← rest]
    exact split
  rw [parts]
  exact .padded blankBefore whole blankFinal

end HtmlFragments.Query
