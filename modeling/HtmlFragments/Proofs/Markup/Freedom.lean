import HtmlFragments.Proofs.Markup.Outcome

/-! # How a document may be spelled

A source that spells a forest is read as that forest exactly when no `&` that stands for itself
comes before the name of a member, and every look-up for the end of raw text finds it. Otherwise
some value is read differently, and stays so in the outcome. The look-up cannot fail up to the first
dotted capital I. -/
set_option autoImplicit false

namespace HtmlFragments.Markup

open Grammar
open Progress (LeadsTo leadsTo_of_addAll leadsTo_of_openElement leadsTo_start_addAll add_unique
  step_of_run)

theorem textNodes_inj {value other : Text} (same : textNodes value = textNodes other) :
    value = other := by
  cases value <;> cases other <;> simp_all [textNodes]

theorem opening_of_run {outcome : List Node} {progress : Progress} {lowered before : Text}
    {ampersand : Text → Prop} {next written : Text} {startTag : StartTag}
    (spelled : StartTagText ampersand next startTag written)
    (success : progress.run lowered (.between before (written ++ next)) = .ok outcome) :
    ∃ found middle opening after,
      readStartTag (.between before (written ++ next)) = .ok (found, middle) ∧
        openElement lowered found middle = .ok (opening, after) ∧
        LeadsTo outcome (progress.enter opening) := by
  have nonempty := ne_nil_of_endsText (endsText_startTagText spelled next)
  obtain ⟨following, place, steps, onward⟩ := step_of_run nonempty success
  simp only [Progress.step, Cursor.between_rest, ofText_startTagText spelled] at steps
  obtain ⟨⟨opening, finish⟩, opened, rest⟩ := ok_of_bind_ok steps
  cases rest
  obtain ⟨⟨found, middle⟩, reads, opens⟩ := ok_of_bind_ok opened
  exact ⟨found, middle, opening, _, reads, opens, onward⟩

theorem readOpening_of_run {outcome : List Node} {progress : Progress} {lowered before : Text}
    {ampersand : Text → Prop} {next tag written : Text} {pairs : List Attribute} {tagEnd : TagEnd}
    {children : List Node} (spelled : StartTagText ampersand next ⟨tag, pairs, tagEnd⟩ written)
    (success : progress.run lowered (.between before (written ++ next)) = .ok outcome)
    (leads : LeadsTo outcome (progress.add (.element tag pairs children))) :
    ∃ found middle opening after,
      readStartTag (.between before (written ++ next)) = .ok (⟨tag, pairs, found⟩, middle) ∧
        openElement lowered ⟨tag, pairs, found⟩ middle = .ok (opening, after) ∧
        LeadsTo outcome (progress.enter opening) := by
  obtain ⟨startTag, middle, opening, after, reads, opens, onward⟩ := opening_of_run spelled success
  obtain ⟨others, otherLeads⟩ := leadsTo_of_openElement opens onward
  obtain ⟨found, attributes, tagEnd⟩ := startTag
  cases add_unique leads otherLeads
  exact ⟨tagEnd, middle, opening, after, reads, opens, onward⟩

theorem startTagText_of_run {outcome : List Node} {progress : Progress} {lowered before : Text}
    {next tag written : Text} {pairs : List Attribute} {tagEnd : TagEnd} {children : List Node}
    (spelled : StartTagText StartsNoReference next ⟨tag, pairs, tagEnd⟩ written)
    (success : progress.run lowered (.between before (written ++ next)) = .ok outcome)
    (leads : LeadsTo outcome (progress.add (.element tag pairs children))) :
    StartTagText StartsNothing next ⟨tag, pairs, tagEnd⟩ written := by
  obtain ⟨_, _, _, _, reads, _, _⟩ := readOpening_of_run spelled success leads
  exact startTagText_of_readStartTag before spelled reads

theorem data_of_run {outcome : List Node} {progress : Progress} {lowered before : Text}
    {next value written : Text} (filled : value ≠ [])
    (data : Data StartsNoReference endsText next value written)
    (success : progress.run lowered (.between before (written ++ next)) = .ok outcome)
    (leads : LeadsTo outcome (progress.add (.text value))) :
    Data StartsNothing endsText next value written := by
  obtain ⟨nonempty, continues⟩ := data_begins CharacterData.passes_endsText data filled
  have isText : Construct.ofText (written ++ next) = .text := by
    simpa [endsText] using continues
  obtain ⟨following, place, steps, onward⟩ := step_of_run (by simp [nonempty]) success
  simp only [Progress.step, Cursor.between_rest, isText] at steps
  cases steps
  have same := Node.text.inj (add_unique onward leads)
  exact CharacterData.data_of_read CharacterData.passes_endsText data same

theorem foundAfter_of_readRawText {source before tag value rest : Text} {after : Cursor}
    (filled : rest ≠ [])
    (success : readRawText source.lowerCase tag (.between before (value ++ rest)) =
      .ok (value, after)) : FoundAfter source before tag value := by
  unfold readRawText at success
  split at success
  · cases success
  · rename_i length index
    obtain ⟨finish, _, shape⟩ := ok_of_bind_ok success
    have taken : (value ++ rest).take length = value := congrArg Prod.fst (Except.ok.inj shape)
    have restLength := List.length_pos_iff.mpr filled
    have count := congrArg List.length taken
    rw [List.length_take, List.length_append] at count
    have whole : length = value.length := by omega
    rw [FoundAfter, ← whole]
    exact index

theorem foundAfter_of_run {outcome : List Node} {progress : Progress}
    {source before tag opening value rest : Text} {pairs : List Attribute} (filled : rest ≠ [])
    (spelled : StartTagText StartsNothing (value ++ rest) ⟨tag, pairs, .plain⟩ opening)
    (notVoid : isVoid tag = false) (raw : isRawText tag = true)
    (success : progress.run source.lowerCase (.between before (opening ++ (value ++ rest))) =
      .ok outcome)
    (leads : LeadsTo outcome (progress.add (.element tag pairs (textNodes value)))) :
    FoundAfter source (before ++ opening) tag value := by
  obtain ⟨_, _, made, _, reads, opens, onward⟩ := readOpening_of_run spelled success leads
  rw [readStartTag_between before spelled] at reads
  cases reads
  simp only [openElement, reduceCtorEq, notVoid, Bool.false_eq_true, or_self, if_false, raw,
    if_true] at opens
  obtain ⟨⟨read, finish⟩, rawRead, rest⟩ := ok_of_bind_ok opens
  cases rest
  have same := textNodes_inj (Node.element.inj (add_unique onward leads)).2.2
  subst same
  exact foundAfter_of_readRawText filled rawRead

theorem content_of_run {source before text next : Text} {afterText : Bool}
    {nodes outcome : List Node}
    (content : Content StartsNoReference Anywhere afterText before nodes text next)
    (follows : AfterContent next) (progress : Progress)
    (leads : LeadsTo outcome (progress.addAll nodes))
    (success : progress.run source.lowerCase (.between before (text ++ next)) = .ok outcome) :
    Content StartsNothing (FoundAfter source) afterText before nodes text next := by
  induction content generalizing progress with
  | nil => exact .nil
  | aside aside _ ih =>
    rw [List.append_assoc, Progress.run_aside _ _ _ progress aside] at success
    exact .aside aside (ih follows progress leads success)
  | text filled data later ih =>
    rw [List.append_assoc] at success
    have strict := data_of_run filled data success (leadsTo_of_addAll leads)
    rw [Progress.run_text _ _ progress filled strict (ended_of_content later follows)] at success
    exact .text filled strict (ih follows _ leads success)
  | empty spelled closed _ ih =>
    rw [List.append_assoc] at success
    have strict := startTagText_of_run spelled success (leadsTo_of_addAll leads)
    rw [Progress.run_empty _ _ progress strict closed] at success
    exact .empty strict closed (ih follows _ leads success)
  | rawText spelled notVoid raw free closes _ _ ih =>
    rw [List.append_assoc, List.append_assoc, List.append_assoc] at success
    have strict := startTagText_of_run spelled success (leadsTo_of_addAll leads)
    have found := foundAfter_of_run (endTagText_append_ne_nil closes _) strict notVoid raw success
      (leadsTo_of_addAll leads)
    rw [Progress.run_rawText progress strict notVoid raw closes found] at success
    exact .rawText strict notVoid raw free closes found (ih follows _ leads success)
  | @element _ before tag _ _ _ _ _ pairs children _ spelled notVoid notRaw closes _ _ ihInner ih =>
    rw [List.append_assoc, List.append_assoc, List.append_assoc] at success
    have strict := startTagText_of_run spelled success (leadsTo_of_addAll leads)
    rw [Progress.run_opening _ _ progress strict notVoid notRaw] at success
    have inside : LeadsTo outcome
        ((Progress.mk (⟨tag, pairs, []⟩ :: progress.openElements) progress.finished).addAll
          children) := by
      rw [Progress.addAll_inner]
      refine .inside [] ?_
      have whole : LeadsTo outcome (progress.add (.element tag pairs children)) :=
        leadsTo_of_addAll leads
      rw [List.append_nil, List.append_nil, List.reverse_reverse]
      exact whole
    have strictInner := ihInner (afterContent_endTag closes _) _ inside success
    rw [run_content strictInner (afterContent_endTag closes _), Progress.addAll_inner,
      Progress.run_closing _ _ closes, List.append_nil, List.reverse_reverse] at success
    exact .element strict notVoid notRaw closes strictInner (ih follows _ leads success)

/-- A source that is read as the forest it spells meets both conditions. -/
theorem spells_of_parse {nodes : List Node} {source : Text}
    (spelled : Spells StartsNoReference Anywhere nodes source)
    (success : Document.parse source = .ok ⟨nodes⟩) :
    Spells StartsNothing (FoundAfter source) nodes source := by
  rw [Document.parse_eq_ok, Document.readNodes] at success
  have leads := leadsTo_start_addAll nodes
  cases spelled with
  | marked content =>
    rw [contentStart_marked] at success
    exact .marked (content_of_run content (.inl rfl) _ leads (by simpa using success))
  | unmarked unmarked content =>
    rw [contentStart_unmarked unmarked] at success
    exact .unmarked unmarked (content_of_run content (.inl rfl) _ leads (by simpa using success))

/-! ## Up to the first dotted capital I -/

/-- No dotted capital I stands before the end of the raw text. -/
def Undotted (before _tag value : Text) : Prop :=
  CodeUnit.dottedCapital ∉ before ∧ CodeUnit.dottedCapital ∉ value

theorem content_of_undotted {source before text next : Text} {afterText : Bool} {nodes : List Node}
    {ampersand : Text → Prop}
    (content : Content ampersand Undotted afterText before nodes text next)
    (whole : source = before ++ (text ++ next)) :
    Content ampersand (FoundAfter source) afterText before nodes text next := by
  induction content with
  | nil => exact .nil
  | aside aside _ ih => exact .aside aside (ih (by simpa using whole))
  | text filled data _ ih => exact .text filled data (ih (by simpa using whole))
  | empty spelled closed _ ih => exact .empty spelled closed (ih (by simpa using whole))
  | @rawText _ before _ opening value closing text next _ _ spelled notVoid raw free closes
      undotted _ ih =>
    have found := foundAfter_of_undotted (text ++ next) raw undotted.1 undotted.2 free
      closes
    have split : source = before ++ opening ++ (value ++ (closing ++ (text ++ next))) := by
      simpa using whole
    rw [← split] at found
    exact .rawText spelled notVoid raw free closes found (ih (by simpa using whole))
  | element spelled notVoid notRaw closes _ _ ihInner ih =>
    exact .element spelled notVoid notRaw closes (ihInner (by simpa using whole))
      (ih (by simpa using whole))

theorem parse_of_undotted {nodes : List Node} {source : Text}
    (spelled : Spells StartsNothing Undotted nodes source) :
    Document.parse source = .ok ⟨nodes⟩ := by
  apply parse_of_spells
  cases spelled with
  | marked content => exact .marked (content_of_undotted content (by simp))
  | unmarked unmarked content => exact .unmarked unmarked (content_of_undotted content (by simp))

/-- Main result: the exact condition, and a simple one that is enough. -/
theorem parse_spelled {nodes : List Node} {source : Text}
    (spelled : Spells StartsNoReference Anywhere nodes source) :
    (Document.parse source = .ok ⟨nodes⟩ ↔ Spells StartsNothing (FoundAfter source) nodes source) ∧
      (Spells StartsNothing Undotted nodes source → Document.parse source = .ok ⟨nodes⟩) :=
  ⟨⟨spells_of_parse spelled, parse_of_spells⟩, parse_of_undotted⟩

/-- A source with a comment, a bare value, a reference and an end tag in another case. -/
theorem spells_paragraph (ampersand : Text → Prop) (found : Text → Text → Text → Prop) :
    Spells ampersand found
      [.element (Text.ofString "p") [⟨Text.ofString "a", Text.ofString "1"⟩]
        [.text (Text.ofString "<x")]]
      (Text.ofString "<!--c--><p a =1>&lt;x</P >") := by
  have value : ∀ next, Value ampersand (0x3E :: next) [0x31] [0x31] := fun next =>
    .bare (by decide) rfl (.literal rfl (fun same => absurd same (by decide)) .nil)
  have isName : IsAttributeName [0x61] := ⟨by decide, List.all_eq_true.mp (by decide)⟩
  have space : Text.Blank [0x20] := List.all_eq_true.mp (by decide)
  have nothing : Text.Blank [] := Text.allOf_nil _
  have pairs : ∀ next, Pairs ampersand (0x3E :: next) [⟨[0x61], [0x31]⟩]
      ([0x20] ++ (([0x61] ++ ([0x20] ++ 0x3D :: ([] ++ [0x31]))) ++ [])) := fun next =>
    .cons (by decide) space (.valued isName space nothing (value next)) .nil
  have opening : ∀ next, StartTagText ampersand next ⟨[0x70], [⟨[0x61], [0x31]⟩], .plain⟩
      (0x3C :: ([0x70] ++ (([0x20] ++ (([0x61] ++ ([0x20] ++ 0x3D :: ([] ++ [0x31]))) ++ [])) ++
        ([] ++ [0x3E])))) := fun next =>
    .spaced ⟨rfl, Text.allOf_nil _⟩ nothing (pairs next)
  have closing : EndTagText [0x70] (0x3C :: 0x2F :: ([0x50] ++ ([0x20] ++ [0x3E]))) :=
    .spaced ⟨rfl, Text.allOf_nil _⟩ (by decide) space
  have reference : ReferenceText [0x3C] (Text.ofString "lt" ++ [0x3B]) := .named (by decide)
  have data : ∀ next, Data ampersand endsText next ([0x3C] ++ [0x78])
      (0x26 :: ((Text.ofString "lt" ++ [0x3B]) ++ [0x78])) := fun next =>
    .reference reference (.literal rfl (fun same => absurd same (by decide)) .nil)
  have comment : Aside (0x3C :: 0x21 :: 0x2D :: 0x2D :: ([0x63] ++ [0x2D, 0x2D, 0x3E])) :=
    .comment (by decide)
  have content : Content ampersand found false [] _ _ [] :=
    .aside comment (.element (opening _) (by decide) (by decide) closing
      (.text (by decide) (data _) .nil) .nil)
  exact Spells.unmarked (by decide) content

theorem parse_spelled_paragraph :
    Spells StartsNoReference Anywhere
        [.element (Text.ofString "p") [⟨Text.ofString "a", Text.ofString "1"⟩]
          [.text (Text.ofString "<x")]]
        (Text.ofString "<!--c--><p a =1>&lt;x</P >") ∧
      Document.parse (Text.ofString "<!--c--><p a =1>&lt;x</P >") =
        .ok ⟨[.element (Text.ofString "p") [⟨Text.ofString "a", Text.ofString "1"⟩]
          [.text (Text.ofString "<x")]]⟩ :=
  ⟨spells_paragraph _ _, (parse_spelled (spells_paragraph _ _)).2 (spells_paragraph _ _)⟩

/-- After a dotted capital I the end of a script is looked up one unit too late. -/
theorem not_forall_parse_spelled :
    ¬∀ nodes source, Spells StartsNoReference Anywhere nodes source →
      Document.parse source = .ok ⟨nodes⟩ := by
  intro parses
  have opening : ∀ next, StartTagText StartsNoReference next ⟨Text.ofString "script", [], .plain⟩
      (0x3C :: (Text.ofString "script" ++ ([] ++ ([] ++ [0x3E])))) := fun next =>
    .spaced ⟨by decide, List.all_eq_true.mp (by decide)⟩ (Text.allOf_nil _) .nil
  have closing : EndTagText (Text.ofString "script")
      (0x3C :: 0x2F :: (Text.ofString "script" ++ ([] ++ [0x3E]))) :=
    .spaced ⟨by decide, List.all_eq_true.mp (by decide)⟩ (by decide) (Text.allOf_nil _)
  have closed : ¬HoldsEndTag (Text.ofString "script") [0x61] := by
    rintro ⟨name, _, holds⟩
    exact absurd holds.length_le (by simp)
  have literal : ∀ next, Data StartsNoReference endsText next [0x130] [0x130] := fun next =>
    .literal rfl (fun same => absurd same (by decide)) .nil
  have script : Content StartsNoReference Anywhere true [0x130] _ _ [] :=
    .rawText (opening _) (by decide) (by decide) closed closing trivial .nil
  have spelled : Spells StartsNoReference Anywhere _ _ :=
    .unmarked (by decide) (.text (by decide) (literal _) script)
  have success : Document.parse (0x130 :: Text.ofString "<script>a</script>") = .ok ⟨_⟩ :=
    parses _ _ spelled
  have failed : (Document.parse (0x130 :: Text.ofString "<script>a</script>")).isOk = false := by
    decide +kernel
  rw [success] at failed
  cases failed

end HtmlFragments.Markup
