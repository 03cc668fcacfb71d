import HtmlFragments.Proofs.Markup.ContentReading

/-! # What a run has read stays

A run only adds nodes at the end of the innermost open element and never takes one back. So the
outcome of a run fixes every node that was read on the way to it: two nodes that can be read at one
place of one outcome are the same. -/
set_option autoImplicit false

namespace HtmlFragments.Markup

namespace Progress

/-- The nodes are what the progress can become: its finished nodes come first, and every open
element stands after them with more children at the end. -/
inductive LeadsTo (outcome : List Node) : Progress → Prop where
  | top {finished : List Node} : finished.reverse <+: outcome → LeadsTo outcome ⟨[], finished⟩
  | inside {tag : Text} {attributes : List Attribute} {children : List Node}
      {outer : List OpenElement} {finished : List Node} (later : List Node) :
      LeadsTo outcome
        ((Progress.mk outer finished).add (.element tag attributes (children.reverse ++ later))) →
      LeadsTo outcome ⟨⟨tag, attributes, children⟩ :: outer, finished⟩

theorem leadsTo_of_add {outcome : List Node} {progress : Progress} {node : Node}
    (leads : LeadsTo outcome (progress.add node)) : LeadsTo outcome progress := by
  obtain ⟨openElements, finished⟩ := progress
  cases openElements with
  | nil =>
    cases leads with
    | top front =>
      rw [List.reverse_cons] at front
      exact .top ((List.prefix_append _ _).trans front)
  | cons inner outer =>
    cases leads with
    | inside later leads =>
      rw [List.reverse_cons, List.append_assoc] at leads
      exact .inside _ leads

theorem leadsTo_of_addAll {outcome : List Node} {progress : Progress} {nodes : List Node}
    (leads : LeadsTo outcome (progress.addAll nodes)) : LeadsTo outcome progress := by
  induction nodes generalizing progress with
  | nil => exact leads
  | cons node nodes ih => exact leadsTo_of_add (ih leads)

theorem leadsTo_start_addAll (nodes : List Node) : LeadsTo nodes (start.addAll nodes) := by
  rw [start, addAll_top, List.append_nil]
  exact .top (by simp)

theorem leadsTo_of_openElement {outcome : List Node} {progress : Progress} {lowered : Text}
    {startTag : StartTag} {cursor after : Cursor} {opening : Opening}
    (opens : openElement lowered startTag cursor = .ok (opening, after))
    (leads : LeadsTo outcome (progress.enter opening)) :
    ∃ children, LeadsTo outcome
      (progress.add (.element startTag.tag startTag.attributes children)) := by
  simp only [openElement] at opens
  split at opens
  · cases opens
    exact ⟨[], leads⟩
  · split at opens
    · obtain ⟨⟨value, finish⟩, _, rest⟩ := ok_of_bind_ok opens
      cases rest
      exact ⟨textNodes value, leads⟩
    · cases opens
      cases leads with
      | inside later leads => exact ⟨later, leads⟩

theorem leadsTo_of_step {outcome : List Node} {progress next : Progress} {lowered : Text}
    {cursor after : Cursor} (steps : progress.step lowered cursor = .ok (next, after))
    (leads : LeadsTo outcome next) : LeadsTo outcome progress := by
  unfold step at steps
  split at steps
  · unfold leave at steps
    split at steps
    · cases steps
    · rename_i inner outer shows
      obtain ⟨finish, _, rest⟩ := ok_of_bind_ok steps
      cases rest
      obtain ⟨openElements, finished⟩ := progress
      cases shows
      exact .inside [] (by simpa using leads)
  · obtain ⟨finish, _, rest⟩ := ok_of_bind_ok steps
    cases rest
    exact leads
  · obtain ⟨finish, _, rest⟩ := ok_of_bind_ok steps
    cases rest
    exact leads
  · obtain ⟨⟨opening, finish⟩, opened, rest⟩ := ok_of_bind_ok steps
    cases rest
    obtain ⟨⟨startTag, middle⟩, _, opens⟩ := ok_of_bind_ok opened
    obtain ⟨children, leads⟩ := leadsTo_of_openElement opens leads
    exact leadsTo_of_add leads
  · cases steps
    exact leadsTo_of_add leads

theorem leadsTo_of_run {outcome : List Node} {progress : Progress} {lowered : Text}
    {cursor : Cursor} (success : progress.run lowered cursor = .ok outcome) :
    LeadsTo outcome progress := by
  fun_induction run lowered progress cursor with
  | case1 progress cursor shows =>
    obtain ⟨openElements, finished⟩ := progress
    cases openElements with
    | nil =>
      cases success
      exact .top (List.prefix_refl _)
    | cons inner outer => cases success
  | case2 => cases success
  | case3 progress cursor _ _ _ next after steps ih => exact leadsTo_of_step steps (ih success)

theorem node_of_append {front later other : List Node} {node otherNode : Node}
    (same : front ++ node :: later = front ++ otherNode :: other) : node = otherNode :=
  (List.cons.inj (List.append_cancel_left same)).1

/-- At one place of one outcome stands one node. -/
theorem add_unique {outcome : List Node} {progress : Progress} {node other : Node}
    (leads : LeadsTo outcome (progress.add node))
    (otherLeads : LeadsTo outcome (progress.add other)) : node = other := by
  obtain ⟨openElements, finished⟩ := progress
  -- The two elements that are open around the nodes are the same one by the induction hypothesis.
  induction openElements generalizing node other with
  | nil =>
    cases leads with
    | top front =>
      cases otherLeads with
      | top otherFront =>
        obtain ⟨later, rfl⟩ := front
        obtain ⟨otherLater, same⟩ := otherFront
        simp only [List.reverse_cons, List.append_assoc, List.singleton_append] at same
        exact (node_of_append same).symm
  | cons inner outer ih =>
    cases leads with
    | inside later leads =>
      cases otherLeads with
      | inside otherLater otherLeads =>
        have same := ih leads otherLeads
        simp only [Node.element.injEq, true_and, List.reverse_cons, List.append_assoc,
          List.singleton_append] at same
        exact node_of_append same

/-- A run that succeeds begins with a step that succeeds. -/
theorem step_of_run {outcome : List Node} {progress : Progress} {lowered : Text} {cursor : Cursor}
    (nonempty : cursor.rest ≠ []) (success : progress.run lowered cursor = .ok outcome) :
    ∃ next after, progress.step lowered cursor = .ok (next, after) ∧ LeadsTo outcome next := by
  rw [run] at success
  split at success
  · rename_i shows
    exact absurd shows nonempty
  · split at success
    · cases success
    · rename_i next after steps
      exact ⟨next, after, steps, leadsTo_of_run success⟩

end Progress

end HtmlFragments.Markup
