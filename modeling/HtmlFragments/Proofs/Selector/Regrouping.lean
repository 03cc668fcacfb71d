import HtmlFragments.Proofs.Selector.Canonical

/-! # Regrouping queries

The text of a query shows no grouping, and reading groups from left to right. Both combinators and
unions are associative in what they find, in every mix, so that grouping does not matter. Main
result: a query with its unions outermost has the results of the query that its text is read as. -/
set_option autoImplicit false

namespace HtmlFragments.Query

def Writable : Query → Prop
  | .simple selector => selector.Writable
  | .combined _ left right => left.Writable ∧ right.Writable
  | .union left right => left.Writable ∧ right.Writable

/-- No union stands below a combination. -/
def UnionsOutermost : Query → Prop
  | .simple _ => True
  | .combined _ left right => left.UnionFree ∧ right.UnionFree
  | .union left right => left.UnionsOutermost ∧ right.UnionsOutermost

/-! ## Grouping from left to right -/

def extend (combinator : Combinator) (left : Query) : Query → Query
  | .combined inner before after => .combined inner (extend combinator left before) after
  | right => .combined combinator left right

def unite (left : Query) : Query → Query
  | .union before after => .union (unite left before) after
  | right => .union left right

/-- The same selectors, combinators and unions in the same order, grouped from left to right. -/
def regrouped : Query → Query
  | .simple selector => .simple selector
  | .combined combinator left right => extend combinator left.regrouped right.regrouped
  | .union left right => unite left.regrouped right.regrouped

/-! ## Grouping leaves the text -/

theorem text_extend (combinator : Combinator) (left right : Query) :
    (extend combinator left right).text = (combined combinator left right).text := by
  induction right with
  | simple selector => rfl
  | combined inner before after ihBefore _ =>
    rw [extend, text, ihBefore]
    simp only [text, List.append_assoc]
  | union before after _ _ => rfl

theorem text_unite (left right : Query) : (unite left right).text = (union left right).text := by
  induction right with
  | simple selector => rfl
  | combined inner before after _ _ => rfl
  | union before after ihBefore _ =>
    rw [unite, text, ihBefore]
    simp only [text, List.append_assoc]

theorem text_regrouped (query : Query) : query.regrouped.text = query.text := by
  induction query with
  | simple selector => rfl
  | combined combinator left right ihLeft ihRight =>
    rw [regrouped, text_extend, text, ihLeft, ihRight, text]
  | union left right ihLeft ihRight => rw [regrouped, text_unite, text, ihLeft, ihRight, text]

/-! ## Grouping leaves the results -/

/-- Two combinations in a row find the same in either grouping: the right side of a combination
starts anew from each match of its left side, in the scope of its own combinator. -/
theorem find_combined_assoc (first second : Combinator) (left middle right : Query) (scope : Scope)
    (element : Element) :
    (combined second (combined first left middle) right).find scope element =
      (combined first left (combined second middle right)).find scope element := by
  simp only [find, Node.elements, List.filterMap_flatMap, List.flatMap_assoc]

theorem find_extend (combinator : Combinator) (left right : Query) (scope : Scope)
    (element : Element) :
    (extend combinator left right).find scope element =
      (combined combinator left right).find scope element := by
  induction right with
  | simple selector => rfl
  | combined inner before after ihBefore _ =>
    rw [← find_combined_assoc, extend, find, find, ihBefore]
  | union before after _ _ => rfl

theorem find_unite (left right : Query) (scope : Scope) (element : Element) :
    (unite left right).find scope element = (union left right).find scope element := by
  induction right with
  | simple selector => rfl
  | combined inner before after _ _ => rfl
  | union before after ihBefore _ =>
    rw [unite, find, ihBefore]
    simp only [find, List.append_assoc]

theorem find_regrouped (query : Query) (scope : Scope) (element : Element) :
    query.regrouped.find scope element = query.find scope element := by
  induction query generalizing scope element with
  | simple selector => rfl
  | combined combinator left right ihLeft ihRight =>
    rw [regrouped, find_extend, find, find, ihLeft]
    exact List.flatMap_congr fun inner _ => ihRight combinator.scope inner
  | union left right ihLeft ihRight => rw [regrouped, find_unite, find, find, ihLeft, ihRight]

theorem search_congr {query other : Query}
    (same : ∀ scope element, query.find scope element = other.find scope element)
    (document : Document) : query.search document = other.search document :=
  List.flatMap_congr fun element _ => same .subtree element

/-! ## Grouped from left to right, a query is canonical -/

theorem canonical_extend {combinator : Combinator} {left right : Query} (free : left.UnionFree)
    (canonical : left.Canonical) (freeRight : right.UnionFree) (canonicalRight : right.Canonical) :
    (extend combinator left right).UnionFree ∧ (extend combinator left right).Canonical := by
  induction right with
  | simple selector => exact ⟨⟨free, trivial⟩, free, ⟨selector, rfl⟩, canonical, canonicalRight⟩
  | combined inner before after ihBefore _ =>
    obtain ⟨freeBefore, single, canonicalBefore, canonicalAfter⟩ := canonicalRight
    obtain ⟨freeWhole, canonicalWhole⟩ := ihBefore freeBefore canonicalBefore
    exact ⟨⟨freeWhole, freeRight.2⟩, freeWhole, single, canonicalWhole, canonicalAfter⟩
  | union before after _ _ => exact freeRight.elim

theorem canonical_unite {left right : Query} (canonical : left.Canonical)
    (canonicalRight : right.Canonical) : (unite left right).Canonical := by
  induction right with
  | simple selector => exact ⟨trivial, canonical, canonicalRight⟩
  | combined inner before after _ _ =>
    obtain ⟨freeBefore, ⟨selector, rfl⟩, _, _⟩ := id canonicalRight
    exact ⟨⟨freeBefore, trivial⟩, canonical, canonicalRight⟩
  | union before after ihBefore _ =>
    obtain ⟨freeAfter, canonicalBefore, canonicalAfter⟩ := canonicalRight
    exact ⟨freeAfter, ihBefore canonicalBefore, canonicalAfter⟩

theorem canonical_regrouped_of_unionFree {query : Query} (free : query.UnionFree)
    (writable : query.Writable) : query.regrouped.UnionFree ∧ query.regrouped.Canonical := by
  induction query with
  | simple selector => exact ⟨trivial, writable⟩
  | combined combinator left right ihLeft ihRight =>
    obtain ⟨freeLeft, canonicalLeft⟩ := ihLeft free.1 writable.1
    obtain ⟨freeRight, canonicalRight⟩ := ihRight free.2 writable.2
    exact canonical_extend freeLeft canonicalLeft freeRight canonicalRight
  | union left right _ _ => exact free.elim

theorem canonical_regrouped {query : Query} (outermost : query.UnionsOutermost)
    (writable : query.Writable) : query.regrouped.Canonical := by
  induction query with
  | simple selector => exact writable
  | combined combinator left right _ _ =>
    have free : (combined combinator left right).UnionFree := outermost
    exact (canonical_regrouped_of_unionFree free writable).2
  | union left right ihLeft ihRight =>
    exact canonical_unite (ihLeft outermost.1 writable.1) (ihRight outermost.2 writable.2)

/-- Main result. The query that the text is read as may be grouped in another way, and finds the
same elements in the same order and number, at every element and in every document. -/
theorem find_parse_text (query : Query) (outermost : query.UnionsOutermost)
    (writable : query.Writable) :
    ∃ found, parse query.text = .ok found ∧
      (∀ scope element, found.find scope element = query.find scope element) ∧
      ∀ document, found.search document = query.search document := by
  have parsed := parse_text (canonical_regrouped outermost writable)
  rw [text_regrouped] at parsed
  exact ⟨query.regrouped, parsed, find_regrouped query, search_congr (find_regrouped query)⟩

/-- The text `a b > c, d, e`, of a query grouped from right to left. -/
theorem find_parse_text_rightmost :
    let tagged (tag : String) : Query := .simple { tag := some (Text.ofString tag) }
    let query : Query :=
      .union (.combined .descendant (tagged "a") (.combined .child (tagged "b") (tagged "c")))
        (.union (tagged "d") (tagged "e"))
    query.UnionsOutermost ∧ query.Writable ∧ parse query.text ≠ .ok query ∧
      ∃ found, parse query.text = .ok found ∧
        (∀ scope element, found.find scope element = query.find scope element) ∧
        ∀ document, found.search document = query.search document := by
  intro tagged query
  have writable : ∀ tag, Grammar.Identifier (Text.ofString tag) → (tagged tag).Writable := by
    intro tag identifier
    refine ⟨?_, nofun, nofun, nofun⟩
    intro name same
    cases same
    exact identifier
  have outermost : query.UnionsOutermost := ⟨⟨trivial, trivial, trivial⟩, trivial, trivial⟩
  have allWritable : query.Writable :=
    ⟨⟨writable _ ⟨by decide, List.all_eq_true.mp (by decide)⟩,
        writable _ ⟨by decide, List.all_eq_true.mp (by decide)⟩,
        writable _ ⟨by decide, List.all_eq_true.mp (by decide)⟩⟩,
      writable _ ⟨by decide, List.all_eq_true.mp (by decide)⟩,
      writable _ ⟨by decide, List.all_eq_true.mp (by decide)⟩⟩
  exact ⟨outermost, allWritable, by decide +kernel, find_parse_text query outermost allWritable⟩

end HtmlFragments.Query
