import HtmlFragments.Proofs.Markup.DataPasses
import HtmlFragments.Proofs.Markup.TagLookahead

/-! # Start tags in passes

The attributes of a start tag are read one pass at a time, and so are the values among them. With a
limit on the passes of each loop a start tag still ends behind its beginning, and a limit above the
number of units that are left cuts off nothing. -/
set_option autoImplicit false

namespace HtmlFragments.Markup

open Limited (full)

/-! ## Values -/

def quotedWithin (limit : Nat) (quote : CodeUnit) (cursor : Cursor) : Limited (Text × Cursor) := do
  let ((value, _), after) ← (DataKind.quoted quote).loop.run limit [] (cursor.advance 1)
  match after.rest with
  | [] => full (.error ⟨.closingQuote quote, cursor.position⟩)
  | _ :: _ => return (value, after.advance 1)

def bareWithin (limit : Nat) (cursor : Cursor) : Limited (Text × Cursor) := do
  let ((value, _), after) ← DataKind.bare.loop.run limit [] cursor
  if after.position = cursor.position then full (.error ⟨.attributeValue, cursor.position⟩)
  else return (value, after)

def valueWithin (limit : Nat) (cursor : Cursor) : Limited (Text × Cursor) :=
  match cursor.rest with
  | 0x22 :: _ => quotedWithin limit 0x22 cursor
  | 0x27 :: _ => quotedWithin limit 0x27 cursor
  | _ => bareWithin limit cursor

theorem forward_quotedWithin (limit : Nat) (quote : CodeUnit) (cursor : Cursor) :
    Forward Prod.snd cursor (quotedWithin limit quote cursor) := by
  have data := ((DataKind.quoted quote).loop_advances.onward limit [] (cursor.advance 1)).behind
    (cursor.movesTo_advance 1)
  refine data.bind_forward ?_
  rintro ⟨⟨value, _⟩, after⟩ found
  have moves : cursor.MovesTo after := data.moves _ found
  dsimp only
  split
  · exact forward_error (Nat.le_refl _)
  · exact forward_ok (moves.trans (after.movesTo_advance 1)) (Nat.lt_succ_of_le moves.position_le)

theorem forward_bareWithin (limit : Nat) (cursor : Cursor) :
    Forward Prod.snd cursor (bareWithin limit cursor) := by
  have data := DataKind.bare.loop_advances.onward limit [] cursor
  refine data.bind_forward ?_
  rintro ⟨⟨value, _⟩, after⟩ found
  have moves : cursor.MovesTo after := data.moves _ found
  dsimp only
  split
  · exact forward_error (Nat.le_refl _)
  · rename_i moved
    exact forward_ok moves (Nat.lt_of_le_of_ne moves.position_le (Ne.symm moved))

theorem forward_valueWithin (limit : Nat) (cursor : Cursor) :
    Forward Prod.snd cursor (valueWithin limit cursor) := by
  unfold valueWithin
  split
  · exact forward_quotedWithin limit _ cursor
  · exact forward_quotedWithin limit _ cursor
  · exact forward_bareWithin limit cursor

theorem readQuotedValue_eq (quote : CodeUnit) (cursor : Cursor) :
    readQuotedValue quote cursor =
      DataKind.readWhole (CharacterData.endsQuoted quote) (cursor.advance 1) >>= fun found =>
        match found.2.rest with
        | [] => .error ⟨.closingQuote quote, cursor.position⟩
        | _ :: _ => .ok (found.1.1, found.2.advance 1) :=
  rfl

theorem quotedWithin_eq {limit : Nat} (quote : CodeUnit) {cursor : Cursor}
    (enough : cursor.remaining < limit) :
    quotedWithin limit quote cursor = full (readQuotedValue quote cursor) := by
  have inside : (cursor.advance 1).remaining < limit :=
    Nat.lt_of_le_of_lt (cursor.advance_remaining_le 1) enough
  rw [quotedWithin, DataKind.run_loop _ inside, readQuotedValue_eq]
  refine Limited.full_bind ?_
  rintro ⟨⟨value, _⟩, after⟩ _
  dsimp only
  split <;> rfl

theorem readBareValue_eq (cursor : Cursor) :
    readBareValue cursor = DataKind.readWhole CharacterData.endsBare cursor >>= fun found =>
      if found.2.position = cursor.position then .error ⟨.attributeValue, cursor.position⟩
      else .ok (found.1.1, found.2) := by
  show _ = if cursor.position + (CharacterData.read _ cursor.rest).2 = cursor.position then _
    else Except.ok _
  rw [readBareValue]
  by_cases ended : (cursor.rest.isEmpty || CharacterData.endsBare cursor.rest) = true
  · have nothing : CharacterData.Ended CharacterData.endsBare cursor.rest := by
      simpa [CharacterData.Ended] using ended
    rw [if_pos ended, CharacterData.read_ended nothing]
    exact (if_pos rfl).symm
  · have goesOn : DataKind.bare.loop.outcome cursor = none := if_neg ended
    obtain ⟨unit, rest, shows, continues⟩ := DataKind.loop_outcome_eq_none goesOn
    have moves := CharacterData.read_count_pos CharacterData.endsBare unit rest continues
    rw [← shows] at moves
    rw [if_neg ended, if_neg (by omega)]

theorem bareWithin_eq {limit : Nat} {cursor : Cursor} (enough : cursor.remaining < limit) :
    bareWithin limit cursor = full (readBareValue cursor) := by
  rw [bareWithin, DataKind.run_loop _ enough, readBareValue_eq]
  refine Limited.full_bind ?_
  rintro ⟨⟨value, _⟩, after⟩ _
  dsimp only
  split <;> rfl

theorem valueWithin_eq {limit : Nat} {cursor : Cursor} (enough : cursor.remaining < limit) :
    valueWithin limit cursor = full (readValue cursor) := by
  unfold valueWithin readValue
  rw [quotedWithin_eq _ enough, quotedWithin_eq _ enough, bareWithin_eq enough]
  split <;> simp only [*]

/-! ## Attributes -/

def attributeWithin (limit : Nat) (cursor : Cursor) : Limited (Attribute × Cursor) :=
  let name := cursor.span CodeUnit.isAttributeNameUnit
  let afterName := name.2.skipWhitespace
  match afterName.rest with
  | 0x3D :: _ => do
    let (value, after) ← valueWithin limit (afterName.advance 1).skipWhitespace
    return (⟨name.1, value⟩, after)
  | _ => full (.ok (⟨name.1, []⟩, afterName))

def attributeLoop (limit : Nat) (tag : Text) : Loop Attribute TagEnd where
  outcome _ := none
  pass cursor :=
    match cursor.skipWhitespace.rest with
    | 0x2F :: 0x3E :: _ => full (.ok (.ends .selfClosing, cursor.skipWhitespace.advance 2))
    | 0x3E :: _ => full (.ok (.ends .plain, cursor.skipWhitespace.advance 1))
    | unit :: _ =>
      if CodeUnit.isAttributeNameUnit unit then do
        let (entry, after) ← attributeWithin limit cursor.skipWhitespace
        return (.adds [entry], after)
      else full (.error ⟨.attributeNameOrTagEnd tag, cursor.skipWhitespace.position⟩)
    | [] => full (.error ⟨.attributeNameOrTagEnd tag, cursor.skipWhitespace.position⟩)

theorem onward_attributeWithin (limit : Nat) (cursor : Cursor) :
    Onward Prod.snd (cursor.span CodeUnit.isAttributeNameUnit).2 (attributeWithin limit cursor) := by
  have toEquals := Cursor.movesTo_skipWhitespace (cursor.span CodeUnit.isAttributeNameUnit).2
  unfold attributeWithin
  dsimp only
  split
  · have toValue := (toEquals.trans (Cursor.movesTo_advance _ 1)).trans
      (Cursor.movesTo_skipWhitespace _)
    refine ((forward_valueWithin limit _).behind toValue).toOnward.bind ?_
    exact fun found _ => onward_ok (.refl found.2)
  · exact onward_ok toEquals

/-- An attribute may have an empty value, but at a name unit it has a name. -/
theorem forward_attributeWithin (limit : Nat) {cursor : Cursor} {unit : CodeUnit} {rest : Text}
    (shows : cursor.rest = unit :: rest) (first : CodeUnit.isAttributeNameUnit unit = true) :
    Forward Prod.snd cursor (attributeWithin limit cursor) := by
  have strictly : cursor.position < (cursor.span CodeUnit.isAttributeNameUnit).2.position := by
    simp [Cursor.span, Cursor.advance, shows, first]
  exact (onward_attributeWithin limit cursor).forward (cursor.movesTo_span _) strictly

theorem attributeLoop_advances (limit : Nat) (tag : Text) : (attributeLoop limit tag).Advances where
  pass cursor _ := by
    have toTagEnd := cursor.movesTo_skipWhitespace
    dsimp only [attributeLoop]
    split
    · exact forward_ok (toTagEnd.trans (Cursor.movesTo_advance _ 2))
        (Nat.lt_add_of_pos_right Nat.two_pos |> Nat.lt_of_le_of_lt toTagEnd.position_le)
    · exact forward_ok (toTagEnd.trans (Cursor.movesTo_advance _ 1))
        (Nat.lt_succ_of_le toTagEnd.position_le)
    · split
      · rename_i shows first
        refine ((forward_attributeWithin limit shows first).behind toTagEnd).bind ?_
        exact fun found _ => onward_ok (.refl found.2)
      · exact forward_error toTagEnd.position_le
    · exact forward_error toTagEnd.position_le
  filled cursor made _ found := by
    intro empty
    have nothing : cursor.skipWhitespace.rest = [] := by
      simp [Cursor.skipWhitespace, Cursor.span, Cursor.advance, empty]
    simp only [attributeLoop, nothing] at found
    cases Limited.full_inj found
  outcome _ _ comes := by cases comes

theorem attributeWithin_eq {limit : Nat} {cursor : Cursor} (enough : cursor.remaining < limit) :
    attributeWithin limit cursor = full (readAttribute cursor) := by
  have toEquals := (cursor.movesTo_span CodeUnit.isAttributeNameUnit).trans
    (Cursor.movesTo_skipWhitespace _)
  have toValue := (toEquals.trans (Cursor.movesTo_advance _ 1)).trans
    (Cursor.movesTo_skipWhitespace _)
  have inside := Nat.lt_of_le_of_lt toValue.remaining_le enough
  by_cases equals : ∃ rest,
      (cursor.span CodeUnit.isAttributeNameUnit).2.skipWhitespace.rest = 0x3D :: rest
  · obtain ⟨rest, shows⟩ := equals
    simp only [attributeWithin, readAttribute, shows, valueWithin_eq inside]
    exact Limited.full_bind fun _ _ => rfl
  · have noEquals := not_exists.mp equals
    simp only [attributeWithin, readAttribute]

theorem attributeLoop_pass_pair (limit : Nat) (tag : Text) {cursor : Cursor} {unit : CodeUnit}
    {more : Text} (shows : cursor.skipWhitespace.rest = unit :: more)
    (first : CodeUnit.isAttributeNameUnit unit = true) :
    (attributeLoop limit tag).pass cursor = attributeWithin limit cursor.skipWhitespace >>=
      fun found => full (.ok (.adds [found.1], found.2)) := by
  have notSlash : unit ≠ 0x2F := by
    rintro rfl
    exact absurd first (by decide)
  have notEnd : unit ≠ 0x3E := by
    rintro rfl
    exact absurd first (by decide)
  dsimp only [attributeLoop]
  split
  · rename_i slash
    exact absurd (List.cons.inj (shows.symm.trans slash)).1 notSlash
  · rename_i ending
    exact absurd (List.cons.inj (shows.symm.trans ending)).1 notEnd
  · rename_i same
    rw [← (List.cons.inj (shows.symm.trans same)).1, if_pos first]
    rfl
  · rename_i nothing
    cases shows.symm.trans nothing

theorem attributeLoop_unrolls (limit : Nat) (tag : Text) {bound : Nat} (enough : bound < limit) :
    (attributeLoop limit tag).Unrolls bound (readAttributes tag) where
  outcome _ _ comes := by cases comes
  pass cursor _ inside := by
    rcases tagEnd_or_not cursor.skipWhitespace.rest with
      ⟨tagEnd, next, shows⟩ | ⟨noClose, noSelfClosing⟩
    · rw [readAttributes_tagEnd next shows]
      cases tagEnd <;> simp only [attributeLoop, shows] <;> rfl
    rcases Text.begins_or_stops CodeUnit.isAttributeNameUnit cursor.skipWhitespace.rest with
      ⟨unit, more, shows, first⟩ | noName
    · have small : cursor.skipWhitespace.remaining < limit :=
        Nat.lt_of_le_of_lt (Nat.le_trans cursor.skipWhitespace_remaining_le inside) enough
      rw [readAttributes_pair shows first, attributeLoop_pass_pair limit tag shows first,
        attributeWithin_eq small, bind_assoc]
      exact Limited.full_bind fun _ _ => rfl
    · obtain ⟨before, place⟩ := cursor.skipWhitespace.exists_between
      rw [readAttributes_failing place noClose noSelfClosing noName]
      dsimp only [attributeLoop]
      split
      · rename_i shows
        exact absurd shows (noSelfClosing _)
      · rename_i shows
        rw [shows] at noClose
        exact absurd rfl noClose
      · rename_i shows
        rw [shows] at noName
        have outside : CodeUnit.isAttributeNameUnit _ = false := noName
        rw [if_neg (by rw [outside]; decide), place]
        rfl
      · rw [place]
        rfl

theorem run_attributeLoop {limit : Nat} (tag : Text) {cursor : Cursor}
    (enough : cursor.remaining < limit) :
    (attributeLoop limit tag).run limit [] cursor = full (readAttributes tag cursor) := by
  rw [(attributeLoop_unrolls limit tag enough).run (attributeLoop_advances limit tag) [] enough
    (Nat.le_refl _)]
  cases readAttributes tag cursor <;> rfl

/-! ## Start tags -/

def startTagWithin (limit : Nat) (cursor : Cursor) : Limited (StartTag × Cursor) := do
  let name := (cursor.advance 1).span CodeUnit.isNameUnit
  let ((attributes, tagEnd), after) ← (attributeLoop limit name.1).run limit [] name.2
  return (⟨name.1, attributes, tagEnd⟩, after)

theorem forward_startTagWithin (limit : Nat) (cursor : Cursor) :
    Forward Prod.snd cursor (startTagWithin limit cursor) := by
  have toAttributes := Cursor.movesTo_span CodeUnit.isNameUnit (cursor.advance 1)
  have advances := attributeLoop_advances limit ((cursor.advance 1).span CodeUnit.isNameUnit).1
  have row := (advances.onward limit [] _).behind toAttributes
  refine (row.forward (cursor.movesTo_advance 1) (Nat.lt_succ_self _)).bind ?_
  exact fun found _ => onward_ok (.refl found.2)

theorem startTagWithin_eq {limit : Nat} {cursor : Cursor} (enough : cursor.remaining < limit) :
    startTagWithin limit cursor = full (readStartTag cursor) := by
  have toAttributes := (cursor.movesTo_advance 1).trans (Cursor.movesTo_span CodeUnit.isNameUnit _)
  have inside := Nat.lt_of_le_of_lt toAttributes.remaining_le enough
  rw [startTagWithin, run_attributeLoop _ inside]
  exact Limited.full_bind fun _ _ => rfl

end HtmlFragments.Markup
