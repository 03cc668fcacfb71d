import HtmlFragments.Text.Basic

/-! # Looking up a text inside another one

A text that no part of itself can overlap is found right after a text that does not hold it. What
stands before the first place where a text is found does not hold it. -/
set_option autoImplicit false

namespace HtmlFragments.Text

/-- No proper end of the text is also its beginning. -/
def Borderless (wanted : Text) : Prop :=
  ∀ count < wanted.length, 0 < count → ¬wanted.drop count <+: wanted

instance (wanted : Text) : Decidable wanted.Borderless :=
  inferInstanceAs (Decidable (∀ count < wanted.length, 0 < count → ¬wanted.drop count <+: wanted))

/-- A text at the front of another one, written twice, does not reach into its second part. -/
theorem Borderless.prefix_left {wanted inside rest : Text} (borderless : wanted.Borderless)
    (nonempty : inside ≠ []) (front : wanted <+: inside ++ (wanted ++ rest)) :
    wanted <+: inside := by
  rcases Nat.lt_or_ge inside.length wanted.length with longer | shorter
  · have overlap : inside <+: wanted :=
      List.prefix_of_prefix_length_le (List.prefix_append _ _) front (Nat.le_of_lt longer)
    obtain ⟨border, rfl⟩ := overlap
    have border_prefix : border <+: inside ++ border ++ rest :=
      (List.prefix_append_right_inj inside).mp front
    have end_prefix : border <+: inside ++ border :=
      List.prefix_of_prefix_length_le border_prefix (List.prefix_append _ _) (by simp)
    have absent := borderless inside.length longer (List.length_pos_iff.mpr nonempty)
    rw [List.drop_left] at absent
    exact absurd end_prefix absent
  · exact List.prefix_of_prefix_length_le front (List.prefix_append _ _) shorter

theorem infix_of_not_mem {unit : CodeUnit} {word front text : Text} (absent : unit ∉ front)
    (holds : unit :: word <:+: front ++ text) : unit :: word <:+: text := by
  induction front with
  | nil => exact holds
  | cons first front ih =>
    obtain ⟨notFirst, notLater⟩ := not_or.mp (mt List.mem_cons.mpr absent)
    rcases List.infix_cons_iff.mp holds with begins | later
    · exact absurd (List.cons_prefix_cons.mp begins).1 notFirst
    · exact ih notLater later

theorem indexOf?_append {wanted inside : Text} (rest : Text) (borderless : wanted.Borderless)
    (absent : ¬wanted <:+: inside) :
    indexOf? wanted (inside ++ (wanted ++ rest)) = some inside.length := by
  induction inside with
  | nil =>
    have front : wanted.isPrefixOf (wanted ++ rest) = true :=
      List.isPrefixOf_iff_prefix.mpr (List.prefix_append _ _)
    rw [List.nil_append, indexOf?.eq_def, if_pos front]
    rfl
  | cons unit more ih =>
    have notFront : ¬wanted.isPrefixOf (unit :: more ++ (wanted ++ rest)) = true := by
      rw [List.isPrefixOf_iff_prefix]
      intro front
      exact absent (borderless.prefix_left (List.cons_ne_nil _ _) front).isInfix
    have later : ¬wanted <:+: more := fun holds => absent (List.infix_cons holds)
    rw [indexOf?.eq_def, if_neg notFront]
    simp only [List.cons_append, ih later, Option.map_some, List.length_cons]

theorem indexOf?_eq_some {wanted text : Text} {index : Nat} (nonempty : wanted ≠ [])
    (found : indexOf? wanted text = some index) :
    ∃ inside rest, text = inside ++ (wanted ++ rest) ∧ inside.length = index ∧
      ¬wanted <:+: inside := by
  induction text generalizing index with
  | nil =>
    rw [indexOf?.eq_def, if_neg (by simp [nonempty])] at found
    cases found
  | cons unit more ih =>
    rw [indexOf?.eq_def] at found
    by_cases front : wanted.isPrefixOf (unit :: more) = true
    · rw [if_pos front] at found
      cases found
      obtain ⟨rest, whole⟩ := List.isPrefixOf_iff_prefix.mp front
      exact ⟨[], rest, whole.symm, rfl, fun holds => nonempty (List.infix_nil.mp holds)⟩
    · rw [if_neg front] at found
      obtain ⟨before, later, rfl⟩ := Option.map_eq_some_iff.mp found
      obtain ⟨inside, rest, rfl, rfl, absent⟩ := ih later
      refine ⟨unit :: inside, rest, rfl, rfl, ?_⟩
      intro holds
      rcases List.infix_cons_iff.mp holds with begins | holds
      · rw [List.isPrefixOf_iff_prefix] at front
        exact front (begins.trans (List.prefix_append (unit :: inside) _))
      · exact absent holds

theorem not_infix_of_indexOf?_eq_none {wanted text : Text} (missing : indexOf? wanted text = none) :
    ¬wanted <:+: text := by
  induction text with
  | nil =>
    intro holds
    rw [List.infix_nil.mp holds] at missing
    cases missing
  | cons unit more ih =>
    rw [indexOf?.eq_def] at missing
    by_cases front : wanted.isPrefixOf (unit :: more) = true
    · rw [if_pos front] at missing
      cases missing
    · rw [if_neg front, Option.map_eq_none_iff] at missing
      intro holds
      rcases List.infix_cons_iff.mp holds with begins | holds
      · exact front (List.isPrefixOf_iff_prefix.mpr begins)
      · exact ih missing holds

end HtmlFragments.Text
