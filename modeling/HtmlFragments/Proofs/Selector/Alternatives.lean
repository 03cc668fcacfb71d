import Mathlib.Data.List.Perm.Basic
import HtmlFragments.Proofs.Selector.Results

/-! # Alternatives of a query

Unions may stand anywhere in a query. To take one side of each is an alternative, a query without
unions. Main result: a search gives the results of all alternatives together, in another order, and
every position as often as alternatives select it. A union on the left of a combination may be moved
out of it without a change of the order. -/
set_option autoImplicit false

namespace HtmlFragments

/-- Two loops may be put inside each other in either order, up to the order of the results. -/
theorem perm_flatMap_exchange {Outer Inner Item : Type} (outer : List Outer) (inner : List Inner)
    (items : Outer → Inner → List Item) :
    (outer.flatMap fun first => inner.flatMap (items first)).Perm
      (inner.flatMap fun second => outer.flatMap (items · second)) := by
  induction inner with
  | nil => simp
  | cons second inner ih =>
    simp only [List.flatMap_cons]
    exact (List.flatMap_append_perm outer (items · second)
      fun first => inner.flatMap (items first)).symm.trans (ih.append_left _)

namespace Query

/-- The queries without unions that come from taking one side of each union. -/
def alternatives : Query → List Query
  | .simple selector => [.simple selector]
  | .combined combinator left right =>
    left.alternatives.flatMap fun first => right.alternatives.map (.combined combinator first)
  | .union left right => left.alternatives ++ right.alternatives

theorem unionFree_of_mem_alternatives {query alternative : Query}
    (member : alternative ∈ query.alternatives) : alternative.UnionFree := by
  induction query generalizing alternative with
  | simple selector =>
    rw [List.mem_singleton.mp member]
    trivial
  | combined combinator left right ihLeft ihRight =>
    obtain ⟨first, isFirst, joined⟩ := List.mem_flatMap.mp member
    obtain ⟨second, isSecond, rfl⟩ := List.mem_map.mp joined
    exact ⟨ihLeft isFirst, ihRight isSecond⟩
  | union left right ihLeft ihRight =>
    rcases List.mem_append.mp member with isLeft | isRight
    · exact ihLeft isLeft
    · exact ihRight isRight

/-! ## All alternatives together -/

variable (document : Document)

theorem flatMap_positionsAt_alternatives {query : Query} {scope : Scope}
    (here : ∀ position, (query.positionsAt document scope position).Perm
      (query.alternatives.flatMap (·.positionsAt document scope position)))
    (starts : List Position) :
    (starts.flatMap (query.positionsAt document scope)).Perm
      (query.alternatives.flatMap fun alternative =>
        starts.flatMap (alternative.positionsAt document scope)) :=
  (List.Perm.flatMap_left starts fun start _ => here start).trans
    (perm_flatMap_exchange starts query.alternatives
      fun start alternative => alternative.positionsAt document scope start)

theorem positionsAt_alternatives (query : Query) (scope : Scope) (position : Position) :
    (query.positionsAt document scope position).Perm
      (query.alternatives.flatMap (·.positionsAt document scope position)) := by
  induction query generalizing scope position with
  | simple selector => simp [alternatives]
  | combined combinator left right ihLeft ihRight =>
    have starts := (ihLeft scope position).flatMap_right document.positionsInside
    refine (starts.flatMap_right (right.positionsAt document combinator.scope)).trans ?_
    simp only [alternatives, List.flatMap_assoc, List.flatMap_map, positionsAt]
    refine List.Perm.flatMap_left left.alternatives fun first _ => ?_
    have further := flatMap_positionsAt_alternatives document (ihRight combinator.scope)
      ((first.positionsAt document scope position).flatMap document.positionsInside)
    simpa only [List.flatMap_assoc] using further
  | union left right ihLeft ihRight =>
    rw [positionsAt, alternatives, List.flatMap_append]
    exact (ihLeft scope position).append (ihRight scope position)

theorem positions_alternatives (query : Query) :
    (query.positions document).Perm (query.alternatives.flatMap (·.positions document)) :=
  flatMap_positionsAt_alternatives document (query.positionsAt_alternatives document .subtree)
    (Node.elementPositions document.children)

theorem search_perm_alternatives (query : Query) :
    (query.search document).Perm (query.alternatives.flatMap (·.search document)) := by
  have located : (query.alternatives.flatMap (·.positions document)).map document.elementAt? =
      (query.alternatives.flatMap (·.search document)).map some := by
    simp only [List.map_flatMap, positions_located]
  have images := (query.positions_alternatives document).map document.elementAt?
  rw [located, positions_located] at images
  exact (List.map_perm_map_iff fun _ _ => Option.some.inj).mp images

/-! ## How often a position is reported -/

theorem nodup_positions {query : Query} (unionFree : query.UnionFree) :
    (query.positions document).Nodup := by
  obtain ⟨chain, reads⟩ := unionFree.exists_chain
  refine (enumerates_positions reads document).ordered.imp ?_
  rintro position other before rfl
  exact before.not_inside.1 (List.prefix_refl position)

theorem count_positions (queries : List Query) (unionFree : ∀ query ∈ queries, query.UnionFree)
    (position : Position) :
    (queries.flatMap (·.positions document)).count position =
      queries.countP fun query => position ∈ query.positions document := by
  induction queries with
  | nil => rfl
  | cons query queries ih =>
    obtain ⟨first, others⟩ := List.forall_mem_cons.mp unionFree
    rw [List.flatMap_cons, List.count_append, ih others, List.countP_cons,
      (nodup_positions document first).count, Nat.add_comm]
    simp

/-! ## Moving a union out of a combination -/

theorem find_combined_union (combinator : Combinator) (first second right : Query) (scope : Scope)
    (element : Element) :
    (combined combinator (union first second) right).find scope element =
      (union (combined combinator first right) (combined combinator second right)).find scope
        element := by
  rw [find_combined, find, List.flatMap_append, find, find_combined, find_combined]

/-- Main result. The alternatives of a query are free of unions and report the positions that their
chains select. A search gives their results together, up to the order, and every position as often
as alternatives select it. On the left of a combination a union may be moved out, and the order
stays. -/
theorem search_alternatives (query : Query) (document : Document) :
    (∀ alternative ∈ query.alternatives, alternative.UnionFree ∧
        ∃ chain, alternative.chain? = some chain ∧
          ∀ position, position ∈ alternative.positions document ↔
            chain.Selects document position) ∧
      (query.search document).Perm (query.alternatives.flatMap (·.search document)) ∧
      (query.search document).map some = (query.positions document).map document.elementAt? ∧
      (∀ position, (query.positions document).count position =
        query.alternatives.countP fun alternative => position ∈ alternative.positions document) ∧
      ∀ combinator first second right scope element,
        (combined combinator (union first second) right).find scope element =
          (union (combined combinator first right) (combined combinator second right)).find scope
            element := by
  refine ⟨?_, query.search_perm_alternatives document, (query.positions_located document).symm, ?_,
    find_combined_union⟩
  · intro alternative member
    have unionFree := unionFree_of_mem_alternatives member
    obtain ⟨chain, reads⟩ := unionFree.exists_chain
    exact ⟨unionFree, chain, reads, (enumerates_positions reads document).wanted⟩
  · intro position
    rw [(query.positions_alternatives document).count_eq position]
    exact count_positions document query.alternatives
      (fun _ member => unionFree_of_mem_alternatives member) position

/-- For `a > (b, c), b` the children of the `a` come mixed, not one alternative after the other, and
the first `b` is reported twice. -/
theorem search_alternatives_mixed :
    let tagged (tag : String) : Query := .simple { tag := some (Text.ofString tag) }
    let query : Query :=
      .union (.combined .child (tagged "a") (.union (tagged "b") (tagged "c"))) (tagged "b")
    let leaf (tag : String) : Node := .element (Text.ofString tag) [] []
    let document : Document :=
      ⟨[.element (Text.ofString "a") [] [leaf "b", leaf "c", leaf "b"]]⟩
    query.search document ≠ query.alternatives.flatMap (·.search document) ∧
      (query.search document).Perm (query.alternatives.flatMap (·.search document)) ∧
      (query.positions document).count [0, 0] = 2 ∧
      query.alternatives.countP (fun alternative => [0, 0] ∈ alternative.positions document) = 2 := by
  intro tagged query leaf document
  obtain ⟨_, permuted, _, counted, _⟩ := search_alternatives query document
  have twice : (query.positions document).count [0, 0] = 2 := by decide +kernel
  exact ⟨by decide +kernel, permuted, twice, (counted [0, 0]).symm.trans twice⟩

end Query
end HtmlFragments
