import HtmlFragments.Proofs.Selector.Chain

/-! # Chains of descendants

A search follows a chain from its first selector on, takes the outermost acceptance at every link
and never goes back. A style sheet asks of an element whether it stands inside others that the chain
accepts, wherever these are. Main result: the search gives the outermost of all elements that match
in this sense, so that what it passes over costs no result. -/
set_option autoImplicit false

namespace HtmlFragments

def Position.Around (around position : Position) : Prop := around <+: position ∧ around ≠ position

def Outermost (Wanted : Position → Prop) (position : Position) : Prop :=
  Wanted position ∧ ∀ around, Position.Around around position → ¬ Wanted around

/-- The position is accepted by the first selector, and stands inside positions accepted by the
further ones, from the innermost to the outermost. -/
inductive Nested (document : Document) : List Selector → Position → Prop where
  | alone {selector : Selector} {position : Position} :
      selector.AcceptsAt document position → Nested document [selector] position
  | inside {selector : Selector} {outer : List Selector} {around position : Position} :
      selector.AcceptsAt document position → Position.Around around position →
      Nested document outer around → Nested document (selector :: outer) position

namespace Query

def DescendantsOnly : Query → Prop
  | .simple _ => True
  | .combined combinator left right =>
    combinator = .descendant ∧ left.DescendantsOnly ∧ right.DescendantsOnly
  | .union _ _ => False

def selectors : Query → List Selector
  | .simple selector => [selector]
  | .combined _ left right => left.selectors ++ right.selectors
  | .union left right => left.selectors ++ right.selectors

/-- The element at the position matches the last selector and lies inside elements that match the
ones before it, the nearer the later. -/
def Matches (query : Query) (document : Document) (position : Position) : Prop :=
  Nested document query.selectors.reverse position

end Query

/-! ## Positions around one another -/

namespace Position

theorem Around.length_lt {around position : Position} (proper : Around around position) :
    around.length < position.length := by
  refine Nat.lt_of_le_of_ne proper.1.length_le ?_
  intro same
  exact proper.2 (proper.1.eq_of_length same)

theorem Around.outside {outer middle inner : Position} (prefixed : outer <+: middle)
    (proper : Around middle inner) : Around outer inner := by
  refine ⟨prefixed.trans proper.1, ?_⟩
  rintro rfl
  exact absurd prefixed.length_le (Nat.not_le_of_gt proper.length_lt)

theorem around_append {above inside : Position} :
    Around above (above ++ inside) ↔ inside ≠ [] := by
  constructor
  · rintro proper rfl
    exact proper.2 (List.append_nil above).symm
  · intro proper
    refine ⟨List.prefix_append above inside, ?_⟩
    intro same
    exact proper (List.self_eq_append_right.mp same)

/-- Of two positions around a third one, one is the other or stands around it. -/
theorem around_cases {first second position : Position} (prefixed : first <+: position)
    (otherPrefixed : second <+: position) :
    Around first second ∨ first = second ∨ Around second first := by
  by_cases same : first = second
  · exact .inr (.inl same)
  · rcases List.prefix_or_prefix_of_prefix prefixed otherPrefixed with inside | inside
    · exact .inl ⟨inside, same⟩
    · exact .inr (.inr ⟨inside, fun other => same other.symm⟩)

end Position

open Position (Around)

variable {document : Document}

theorem Selector.nearestBelow_iff {selector : Selector} {above position : Position} :
    selector.NearestBelow document above position ↔
      Around above position ∧ selector.AcceptsAt document position ∧
        ∀ between, Around above between → Around between position →
          ¬ selector.AcceptsAt document between := by
  constructor
  · rintro ⟨inside, proper, rfl, accepted, none⟩
    refine ⟨Position.around_append.mpr proper, accepted, ?_⟩
    rintro between ⟨⟨further, rfl⟩, different⟩ ⟨prefixed, other⟩
    refine none further ?_ ?_ ?_
    · exact Position.around_append.mp ⟨List.prefix_append above further, different⟩
    · exact (List.prefix_append_right_inj above).mp prefixed
    · exact fun same => other (by rw [same])
  · rintro ⟨⟨⟨inside, rfl⟩, different⟩, accepted, none⟩
    have proper := Position.around_append.mp ⟨List.prefix_append above inside, different⟩
    refine ⟨inside, proper, rfl, accepted, ?_⟩
    intro between nonempty prefixed other
    refine none (above ++ between) (Position.around_append.mpr nonempty) ⟨?_, ?_⟩
    · exact (List.prefix_append_right_inj above).mpr prefixed
    · exact fun same => other (List.append_cancel_left same)

/-! ## Outermost positions -/

theorem exists_outermost {Wanted : Position → Prop} {position : Position}
    (wanted : Wanted position) : ∃ around, around <+: position ∧ Outermost Wanted around := by
  induction size : position.length using Nat.strongRecOn generalizing position with
  | ind length ih =>
    by_cases outermost : Outermost Wanted position
    · exact ⟨position, List.prefix_refl position, outermost⟩
    · obtain ⟨around, proper, wantedAround⟩ :
          ∃ around, Around around position ∧ Wanted around := by
        simpa [Outermost, wanted] using outermost
      obtain ⟨outer, prefixed, isOutermost⟩ :=
        ih around.length (size ▸ proper.length_lt) wantedAround rfl
      exact ⟨outer, prefixed.trans proper.1, isOutermost⟩

theorem Outermost.unique {Wanted : Position → Prop} {first second position : Position}
    (outermost : Outermost Wanted first) (other : Outermost Wanted second)
    (prefixed : first <+: position) (otherPrefixed : second <+: position) : first = second := by
  rcases Position.around_cases prefixed otherPrefixed with inside | same | inside
  · exact absurd outermost.1 (other.2 first inside)
  · exact same
  · exact absurd other.1 (outermost.2 second inside)

theorem Outermost.congr {Wanted Other : Position → Prop}
    (same : ∀ position, Wanted position ↔ Other position) (position : Position) :
    Outermost Wanted position ↔ Outermost Other position := by
  simp only [Outermost, same]

/-- One link. From the outermost wanted positions, the nearest acceptances below are the outermost
among all acceptances anywhere below a wanted position. -/
theorem nearestBelow_outermost (Wanted : Position → Prop) (selector : Selector)
    (position : Position) :
    (∃ above, Outermost Wanted above ∧ selector.NearestBelow document above position) ↔
      Outermost (fun inner => selector.AcceptsAt document inner ∧
        ∃ around, Around around inner ∧ Wanted around) position := by
  constructor
  · rintro ⟨above, outermost, nearest⟩
    obtain ⟨proper, accepted, none⟩ := Selector.nearestBelow_iff.mp nearest
    refine ⟨⟨accepted, above, proper, outermost.1⟩, ?_⟩
    rintro inner within ⟨acceptedInner, around, properAround, wanted⟩
    have prefixed : around <+: position := properAround.1.trans within.1
    rcases Position.around_cases prefixed proper.1 with outside | rfl | inside
    · exact outermost.2 around outside wanted
    · exact none inner properAround within acceptedInner
    · exact none inner (.outside inside.1 properAround) within acceptedInner
  · rintro ⟨⟨accepted, around, proper, wanted⟩, none⟩
    obtain ⟨above, prefixed, outermost⟩ := exists_outermost wanted
    have properAbove : Around above position := .outside prefixed proper
    refine ⟨above, outermost, Selector.nearestBelow_iff.mpr ⟨properAbove, accepted, ?_⟩⟩
    intro between below within acceptedBetween
    exact none between within ⟨acceptedBetween, above, below, outermost.1⟩

/-! ## Along a chain -/

theorem nested_cons {selector : Selector} {outer : List Selector} (nonempty : outer ≠ [])
    (position : Position) :
    Nested document (selector :: outer) position ↔
      selector.AcceptsAt document position ∧
        ∃ around, Around around position ∧ Nested document outer around := by
  constructor
  · intro nested
    cases nested with
    | alone _ => exact absurd rfl nonempty
    | inside accepted proper nested => exact ⟨accepted, _, proper, nested⟩
  · rintro ⟨accepted, around, proper, nested⟩
    exact .inside accepted proper nested

theorem nearestBelow_top_iff_nested (selector : Selector) (position : Position) :
    selector.NearestBelow document [] position ↔
      Outermost (Nested document [selector]) position := by
  have single : ∀ place, Nested document [selector] place ↔ selector.AcceptsAt document place := by
    intro place
    constructor
    · intro nested
      cases nested with
      | alone accepted => exact accepted
      | inside _ _ nested => cases nested
    · exact .alone
  rw [Outermost.congr single, nearestBelow_top_iff]
  exact ⟨fun outermost => ⟨outermost.1, fun around proper => outermost.2 around proper.1 proper.2⟩,
    fun outermost =>
      ⟨outermost.1, fun around prefixed other => outermost.2 around ⟨prefixed, other⟩⟩⟩

/-- All links. What the search reaches from the outermost positions nested in some selectors are the
outermost ones nested in all of them. -/
theorem linkedTo_outermost (selectors outer : List Selector) (nonempty : outer ≠ [])
    (position : Position) :
    (∃ start, Outermost (Nested document outer) start ∧
        LinkedTo document (selectors.map (Combinator.descendant, ·)) start position) ↔
      Outermost (Nested document (selectors.reverse ++ outer)) position := by
  induction selectors generalizing outer with
  | nil =>
    constructor
    · rintro ⟨start, outermost, linked⟩
      cases linked
      exact outermost
    · intro outermost
      exact ⟨position, outermost, .arrived position⟩
  | cons selector selectors ih =>
    have further := ih (selector :: outer) (List.cons_ne_nil _ _)
    rw [List.reverse_cons, List.append_assoc, List.singleton_append, ← further]
    have link : ∀ next, (∃ above, Outermost (Nested document outer) above ∧
        selector.NearestBelow document above next) ↔
          Outermost (Nested document (selector :: outer)) next := by
      intro next
      rw [Outermost.congr (nested_cons nonempty), nearestBelow_outermost]
    constructor
    · rintro ⟨start, outermost, linked⟩
      cases linked with
      | through leads linked => exact ⟨_, (link _).mp ⟨start, outermost, leads⟩, linked⟩
    · rintro ⟨next, outermost, linked⟩
      obtain ⟨start, outermostStart, leads⟩ := (link next).mpr outermost
      exact ⟨start, outermostStart, .through leads linked⟩

namespace Query

theorem DescendantsOnly.exists_chain {query : Query} (descends : query.DescendantsOnly) :
    ∃ first others, query.selectors = first :: others ∧
      query.chain? = some ⟨first, others.map (Combinator.descendant, ·)⟩ := by
  induction query with
  | simple selector => exact ⟨selector, [], rfl, rfl⟩
  | combined combinator left right ihLeft ihRight =>
    obtain ⟨rfl, descendsLeft, descendsRight⟩ := descends
    obtain ⟨first, others, listsLeft, readsLeft⟩ := ihLeft descendsLeft
    obtain ⟨second, further, listsRight, readsRight⟩ := ihRight descendsRight
    refine ⟨first, others ++ second :: further, ?_, ?_⟩
    · rw [selectors, listsLeft, listsRight, List.cons_append]
    · rw [chain?, readsLeft, readsRight, List.map_append, List.map_cons]
      rfl
  | union left right _ _ => exact descends.elim

theorem selects_iff_matches {query : Query} {first : Selector} {others : List Selector}
    (lists : query.selectors = first :: others) (position : Position) :
    Chain.Selects document ⟨first, others.map (Combinator.descendant, ·)⟩ position ↔
      Outermost (query.Matches document) position := by
  have nested : query.Matches document = Nested document (others.reverse ++ [first]) := by
    funext place
    rw [Matches, lists, List.reverse_cons]
  rw [nested, ← linkedTo_outermost others [first] (List.cons_ne_nil _ _)]
  simp only [Chain.Selects, nearestBelow_top_iff_nested]

/-- Main result. The search for a chain of descendants lists the outermost matching elements in
document order, each once. It is empty only where nothing matches, and every matching element lies
at or inside exactly one result. -/
theorem search_eq_outermost_matches (query : Query) (descends : query.DescendantsOnly)
    (document : Document) :
    ∃ positions : List Position,
      (query.search document).map some = positions.map document.elementAt? ∧
      positions.Pairwise (· < ·) ∧
      (∀ position, position ∈ positions ↔ query.Matches document position ∧
        ∀ around, Around around position → ¬ query.Matches document around) ∧
      (query.search document = [] → ∀ position, ¬ query.Matches document position) ∧
      ∀ position, query.Matches document position →
        ∃! result, result ∈ positions ∧ result <+: position := by
  obtain ⟨first, others, lists, reads⟩ := descends.exists_chain
  obtain ⟨positions, enumerates⟩ :=
    (enumerates_first document first).followLinks (others.map (Combinator.descendant, ·))
  have located := enumerates.located
  rw [← search_of_chain reads document] at located
  have listed : ∀ position, position ∈ positions ↔ Outermost (query.Matches document) position :=
    fun position => (enumerates.wanted position).trans (selects_iff_matches lists position)
  refine ⟨positions, located.symm, enumerates.ordered.imp fun before => before.lt, listed, ?_, ?_⟩
  · intro empty position matched
    obtain ⟨around, _, outermost⟩ := exists_outermost matched
    rw [empty, List.map_nil, List.map_eq_nil_iff] at located
    have member := (listed around).mpr outermost
    rw [located] at member
    cases member
  · intro position matched
    obtain ⟨result, prefixed, outermost⟩ := exists_outermost matched
    refine ⟨result, ⟨(listed result).mpr outermost, prefixed⟩, ?_⟩
    rintro other ⟨member, otherPrefixed⟩
    exact ((listed other).mp member).unique outermost otherPrefixed prefixed

/-- The chain `a b b`, nested to the right. Of three `b` inside one another the first is a link, the
second the result, and the third, which matches as well, lies inside it. -/
theorem search_eq_outermost_matches_nested :
    let tagged (tag : String) : Query := .simple { tag := some (Text.ofString tag) }
    let query : Query :=
      .combined .descendant (tagged "a") (.combined .descendant (tagged "b") (tagged "b"))
    let node (tag : String) (children : List Node) : Node :=
      .element (Text.ofString tag) [] children
    let document : Document := ⟨[node "a" [node "b" [node "a" [node "b" [node "b" []]]]]]⟩
    query.DescendantsOnly ∧
      query.search document = [⟨Text.ofString "b", [], [node "b" []]⟩] ∧
      ∃ positions : List Position,
        (query.search document).map some = positions.map document.elementAt? ∧
        positions.Pairwise (· < ·) ∧
        (∀ position, position ∈ positions ↔ query.Matches document position ∧
          ∀ around, Around around position → ¬ query.Matches document around) ∧
        (query.search document = [] → ∀ position, ¬ query.Matches document position) ∧
        ∀ position, query.Matches document position →
          ∃! result, result ∈ positions ∧ result <+: position := by
  intro tagged query node document
  have descends : query.DescendantsOnly := ⟨rfl, trivial, rfl, trivial, trivial⟩
  exact ⟨descends, by decide +kernel, search_eq_outermost_matches query descends document⟩

end Query
end HtmlFragments
