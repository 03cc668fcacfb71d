import HtmlFragments.Selector.Compound

/-! # Reading queries

The text of a query is a list of complex selectors separated by `,`. A complex selector is a row of
compound selectors joined by `>` or by whitespace, and both join from left to right. -/
set_option autoImplicit false

namespace HtmlFragments.Query

/-- Reads `>` or whitespace before a further compound selector. Whitespace that joins nothing is
passed over. -/
def readCombinator (cursor : Cursor) : Option Combinator × Cursor :=
  match cursor.skipWhitespace.rest with
  | 0x3E :: _ => (some .child, (cursor.skipWhitespace.advance 1).skipWhitespace)
  | rest =>
    if cursor.skipWhitespace.position != cursor.position && startsCompound rest then
      (some .descendant, cursor.skipWhitespace)
    else (none, cursor.skipWhitespace)

theorem readCombinator_remaining_lt {cursor next : Cursor} {combinator : Combinator}
    (success : readCombinator cursor = (some combinator, next)) :
    next.remaining < cursor.remaining := by
  unfold readCombinator at success
  split at success
  · rename_i arrow
    cases success
    refine Nat.lt_of_le_of_lt (Cursor.skipWhitespace_remaining_le _)
      (Nat.lt_of_lt_of_le (Cursor.advance_remaining_lt _ 1 ?_ Nat.one_pos)
        cursor.skipWhitespace_remaining_le)
    simp [Cursor.remaining, arrow]
  · split at success
    · rename_i joins
      cases success
      apply cursor.skipWhitespace_remaining_lt
      simp only [Bool.and_eq_true, bne_iff_ne] at joins
      exact joins.1
    · cases success

def readComplexFrom (left : Query) (cursor : Cursor) : Reading (Query × Cursor) :=
  match _joined : readCombinator cursor with
  | (none, after) => .ok (left, after)
  | (some combinator, next) =>
    match _success : readCompound next with
    | .error failure => .error failure
    | .ok (selector, after) =>
      readComplexFrom (.combined combinator left (.simple selector)) after
termination_by cursor.remaining
decreasing_by
  exact Nat.lt_of_le_of_lt (readCompound_remaining_le _success)
    (readCombinator_remaining_lt _joined)

def readComplex (cursor : Cursor) : Reading (Query × Cursor) := do
  let (selector, after) ← readCompound cursor
  readComplexFrom (.simple selector) after

theorem readComplexFrom_remaining_le {left query : Query} {cursor after : Cursor}
    (success : readComplexFrom left cursor = .ok (query, after)) :
    after.remaining ≤ cursor.remaining := by
  fun_induction readComplexFrom left cursor with
  | case1 left cursor finish stopped =>
    cases success
    have whole : (readCombinator cursor).2.remaining ≤ cursor.remaining := by
      unfold readCombinator
      split
      · exact Nat.le_trans (Cursor.skipWhitespace_remaining_le _)
          (Nat.le_trans (Cursor.advance_remaining_le _ _) (Cursor.skipWhitespace_remaining_le _))
      · split
        · exact cursor.skipWhitespace_remaining_le
        · exact cursor.skipWhitespace_remaining_le
    rw [stopped] at whole
    exact whole
  | case2 => cases success
  | case3 left cursor combinator next joined selector finish compound shorter =>
    exact Nat.le_trans (shorter success)
      (Nat.le_of_lt (Nat.lt_of_le_of_lt (readCompound_remaining_le compound)
        (readCombinator_remaining_lt joined)))

theorem readComplex_remaining_le {query : Query} {cursor after : Cursor}
    (success : readComplex cursor = .ok (query, after)) : after.remaining ≤ cursor.remaining := by
  obtain ⟨⟨selector, next⟩, compound, success⟩ := ok_of_bind_ok success
  exact Nat.le_trans (readComplexFrom_remaining_le success) (readCompound_remaining_le compound)

def readListFrom (left : Query) (cursor : Cursor) : Reading Query :=
  match _shows : cursor.rest with
  | [] => .ok left
  | unit :: _ =>
    if unit = 0x2C then
      match _success : readComplex (cursor.advance 1).skipWhitespace with
      | .error failure => .error failure
      | .ok (right, after) => readListFrom (.union left right) after
    else .error ⟨.separatorOrSelector, cursor.position⟩
termination_by cursor.remaining
decreasing_by
  exact Nat.lt_of_le_of_lt
    (Nat.le_trans (readComplex_remaining_le _success) (Cursor.skipWhitespace_remaining_le _))
    (cursor.advance_remaining_lt 1 (by simp [Cursor.remaining, _shows]) Nat.one_pos)

def read (source : Text) : Reading Query := do
  let (left, after) ← readComplex (Cursor.start source).skipWhitespace
  readListFrom left after

def parse (source : Text) : Except ParseError Query :=
  ParseError.locate source Expectation.text (read source)

theorem parse_eq_ok {source : Text} {query : Query} :
    parse source = .ok query ↔ read source = .ok query :=
  ParseError.locate_eq_ok

end HtmlFragments.Query
