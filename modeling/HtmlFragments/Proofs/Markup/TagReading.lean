import HtmlFragments.Proofs.Markup.DataReading

/-! # Reading tags

A tag that spells a name and attributes is read as these. After an attribute stands whitespace or
the end of its tag, so that neither a name nor a value without quotes is read too far. -/
set_option autoImplicit false

namespace HtmlFragments.Markup

open Grammar
open Text (Stops Blank)

/-- What stands after an attribute, or after the name of a tag. -/
inductive AfterPair : Text → Prop where
  | pair {spaces more : Text} {unit : CodeUnit} :
      spaces ≠ [] → Blank spaces → CodeUnit.isAttributeNameUnit unit = true →
      AfterPair (spaces ++ unit :: more)
  | tagEnd {spaces next : Text} {tagEnd : TagEnd} :
      Blank spaces → AfterPair (spaces ++ (tagEndText tagEnd ++ next))

theorem afterPair_cases {next : Text} (follows : AfterPair next) :
    (∃ unit more, next = unit :: more ∧ CodeUnit.isWhitespace unit = true) ∨
      ∃ tagEnd more, next = tagEndText tagEnd ++ more := by
  cases follows with
  | @pair spaces more unit nonempty blank first =>
    obtain ⟨space, others, rfl⟩ := List.exists_cons_of_ne_nil nonempty
    exact .inl ⟨space, _, rfl, blank space List.mem_cons_self⟩
  | @tagEnd spaces next tagEnd blank =>
    cases spaces with
    | nil => exact .inr ⟨tagEnd, next, rfl⟩
    | cons space others => exact .inl ⟨space, _, rfl, blank space List.mem_cons_self⟩

theorem stops_of_afterPair {belongs : CodeUnit → Bool} {next : Text} (follows : AfterPair next)
    (noSpace : ∀ unit, CodeUnit.isWhitespace unit = true → belongs unit = false)
    (noEnd : belongs 0x3E = false) (noSlash : belongs 0x2F = false) : Stops belongs next := by
  rcases afterPair_cases follows with ⟨unit, more, rfl, space⟩ | ⟨tagEnd, more, rfl⟩
  · exact noSpace unit space
  · cases tagEnd with
    | plain => exact noEnd
    | selfClosing => exact noSlash

theorem ended_of_afterPair {next : Text} (follows : AfterPair next) :
    CharacterData.Ended CharacterData.endsBare next := by
  refine .inr ?_
  rcases afterPair_cases follows with ⟨unit, more, rfl, space⟩ | ⟨tagEnd, more, rfl⟩
  · rcases CodeUnit.isWhitespace_cases space with rfl | rfl | rfl | rfl | rfl <;> rfl
  · cases tagEnd <;> rfl

theorem not_isNameUnit_of_isWhitespace (unit : CodeUnit)
    (space : CodeUnit.isWhitespace unit = true) : CodeUnit.isNameUnit unit = false := by
  rcases CodeUnit.isWhitespace_cases space with rfl | rfl | rfl | rfl | rfl <;> decide

theorem not_isAttributeNameUnit_of_isWhitespace (unit : CodeUnit)
    (space : CodeUnit.isWhitespace unit = true) : CodeUnit.isAttributeNameUnit unit = false := by
  simp [CodeUnit.isAttributeNameUnit, space]

theorem not_isWhitespace_of_isAttributeNameUnit {unit : CodeUnit}
    (first : CodeUnit.isAttributeNameUnit unit = true) : CodeUnit.isWhitespace unit = false := by
  rw [← Bool.not_eq_true]
  intro space
  rw [not_isAttributeNameUnit_of_isWhitespace unit space] at first
  cases first

theorem stops_nameUnit_of_afterPair {next : Text} (follows : AfterPair next) :
    Stops CodeUnit.isNameUnit next :=
  stops_of_afterPair follows not_isNameUnit_of_isWhitespace (by decide) (by decide)

theorem stops_attributeNameUnit_of_afterPair {next : Text} (follows : AfterPair next) :
    Stops CodeUnit.isAttributeNameUnit next :=
  stops_of_afterPair follows not_isAttributeNameUnit_of_isWhitespace (by decide) (by decide)

theorem skipWhitespace_of_afterPair (before : Text) {next : Text} (follows : AfterPair next) :
    ((Cursor.between before next).skipWhitespace).rest.head? ≠ some 0x3D := by
  cases follows with
  | @pair spaces more unit nonempty blank first =>
    have stops : Stops CodeUnit.isWhitespace (unit :: more) :=
      not_isWhitespace_of_isAttributeNameUnit first
    rw [Cursor.skipWhitespace_between before spaces _ blank stops]
    intro same
    cases same
    exact absurd first (by decide)
  | @tagEnd spaces next tagEnd blank =>
    have stops : Stops CodeUnit.isWhitespace (tagEndText tagEnd ++ next) := by
      cases tagEnd <;> rfl
    rw [Cursor.skipWhitespace_between before spaces _ blank stops]
    cases tagEnd <;> exact fun same => absurd (Option.some.inj same) (by decide)

/-! ## Values -/

theorem data_begins {ampersand : Text → Prop} {ends : Text → Bool}
    (passes : CharacterData.Passes ends) {next value text : Text}
    (data : Data ampersand ends next value text) (filled : value ≠ []) :
    text ≠ [] ∧ ends (text ++ next) = false := by
  cases data with
  | nil => exact absurd rfl filled
  | literal continues _ _ => exact ⟨List.cons_ne_nil _ _, continues⟩
  | reference _ _ => exact ⟨List.cons_ne_nil _ _, passes.ampersand _⟩

theorem readValue_quoted (before : Text) {quote : CodeUnit} (quotes : isQuote quote = true)
    (rest : Text) :
    readValue (.between before (quote :: rest)) =
      readQuotedValue quote (.between before (quote :: rest)) := by
  rcases CharacterData.isQuote_cases quotes with rfl | rfl <;> rfl

theorem readValue_bare (before : Text) {unit : CodeUnit} {rest : Text}
    (noQuote : isQuote unit = false) (continues : CharacterData.endsBare (unit :: rest) = false) :
    readValue (.between before (unit :: rest)) =
      .ok ((CharacterData.read CharacterData.endsBare (unit :: rest)).1,
        (Cursor.between before (unit :: rest)).advance
          (CharacterData.read CharacterData.endsBare (unit :: rest)).2) := by
  unfold readValue
  split
  · rename_i same
    cases same
    exact absurd noQuote (by decide)
  · rename_i same
    cases same
    exact absurd noQuote (by decide)
  · simp only [readBareValue, Cursor.between_rest, continues, List.isEmpty_cons, Bool.or_false,
      Bool.false_eq_true, if_false]

theorem readValue_of_readQuoted (before next : Text) {quote : CodeUnit} {text value : Text}
    (quotes : isQuote quote = true)
    (reads : CharacterData.read (CharacterData.endsQuoted quote) (text ++ quote :: next) =
      (value, text.length)) :
    readValue (.between before (quote :: (text ++ [quote]) ++ next)) =
      .ok (value, .between (before ++ quote :: (text ++ [quote])) next) := by
  have inside := Cursor.advance_between (before ++ [quote]) text (quote :: next) text.length rfl
  have closing := Cursor.advance_between (before ++ [quote] ++ text) [quote] next 1 rfl
  rw [List.cons_append, readValue_quoted before quotes, ← List.cons_append]
  simp only [readQuotedValue, Cursor.advance_quote, Cursor.between_rest, reads, inside]
  simpa using closing

theorem readValue_of_readBare (before : Text) {text value next : Text} (nonempty : text ≠ [])
    (noQuote : Stops isQuote text) (continues : CharacterData.endsBare (text ++ next) = false)
    (reads : CharacterData.read CharacterData.endsBare (text ++ next) = (value, text.length)) :
    readValue (.between before (text ++ next)) = .ok (value, .between (before ++ text) next) := by
  obtain ⟨unit, more, rfl⟩ := List.exists_cons_of_ne_nil nonempty
  rw [List.cons_append] at continues ⊢
  rw [readValue_bare before noQuote continues, ← List.cons_append, reads,
    Cursor.advance_between before _ next _ rfl]

theorem readValue_between (before : Text)
    {next value written : Text} (spelled : Value StartsNothing next value written)
    (ended : CharacterData.Ended CharacterData.endsBare next) :
    readValue (.between before (written ++ next)) =
      .ok (value, .between (before ++ written) next) := by
  cases spelled with
  | @quoted quote value text quotes data =>
    have quoteEnds : CharacterData.Ended (CharacterData.endsQuoted quote) (quote :: next) :=
      .inr (beq_self_eq_true quote)
    exact readValue_of_readQuoted before next quotes
      (CharacterData.read_of_data (CharacterData.passes_endsQuoted quotes) quoteEnds data)
  | @bare value text filled noQuote data =>
    obtain ⟨nonempty, continues⟩ := data_begins CharacterData.passes_endsBare data filled
    exact readValue_of_readBare before nonempty noQuote continues
      (CharacterData.read_of_data CharacterData.passes_endsBare ended data)

/-- A value that is read as it was spelled has no `&` before the name of a member. -/
theorem value_of_readValue (before : Text)
    {next value written : Text} {after : Cursor}
    (spelled : Value StartsNoReference next value written)
    (success : readValue (.between before (written ++ next)) = .ok (value, after)) :
    Value StartsNothing next value written := by
  cases spelled with
  | @quoted quote value text quotes data =>
    rw [List.cons_append, readValue_quoted before quotes, ← List.cons_append] at success
    simp only [readQuotedValue, Cursor.advance_quote, Cursor.between_rest] at success
    split at success
    · cases success
    · have reads := congrArg Prod.fst (Except.ok.inj success)
      exact .quoted quotes (CharacterData.data_of_read (CharacterData.passes_endsQuoted quotes) data
        reads)
  | @bare value text filled noQuote data =>
    obtain ⟨nonempty, continues⟩ := data_begins CharacterData.passes_endsBare data filled
    obtain ⟨unit, more, rfl⟩ := List.exists_cons_of_ne_nil nonempty
    rw [List.cons_append] at continues success
    rw [readValue_bare before noQuote continues] at success
    have reads := congrArg Prod.fst (Except.ok.inj success)
    exact .bare filled noQuote (CharacterData.data_of_read CharacterData.passes_endsBare data reads)

/-! ## Attributes -/

theorem readAttribute_span (before : Text) {name next : Text} (isName : IsAttributeName name)
    (stops : Stops CodeUnit.isAttributeNameUnit next) :
    (Cursor.between before (name ++ next)).span CodeUnit.isAttributeNameUnit =
      (name, .between (before ++ name) next) :=
  Cursor.span_between _ before name next isName.2 stops

theorem stops_equals {before rest : Text} (blank : Blank before) :
    Stops CodeUnit.isAttributeNameUnit (before ++ 0x3D :: rest) := by
  cases before with
  | nil => rfl
  | cons space others =>
    exact not_isAttributeNameUnit_of_isWhitespace space (blank space List.mem_cons_self)

theorem readAttribute_bare (before : Text) {name next : Text} (isName : IsAttributeName name)
    (follows : AfterPair next) :
    readAttribute (.between before (name ++ next)) =
      .ok (⟨name, []⟩, (Cursor.between (before ++ name) next).skipWhitespace) := by
  have noEquals := skipWhitespace_of_afterPair (before ++ name) follows
  simp only [readAttribute, readAttribute_span before isName
    (stops_attributeNameUnit_of_afterPair follows)]
  split
  · rename_i shows
    rw [shows] at noEquals
    exact absurd rfl noEquals
  · rfl

theorem stops_value {ampersand : Text → Prop} {next value written : Text}
    (spelled : Value ampersand next value written) :
    Stops CodeUnit.isWhitespace (written ++ next) := by
  cases spelled with
  | quoted quotes _ => rcases CharacterData.isQuote_cases quotes with rfl | rfl <;> rfl
  | bare filled _ data =>
    obtain ⟨nonempty, continues⟩ := data_begins CharacterData.passes_endsBare data filled
    obtain ⟨unit, more, rfl⟩ := List.exists_cons_of_ne_nil nonempty
    show CodeUnit.isWhitespace unit = false
    rw [← Bool.not_eq_true]
    intro space
    rcases CodeUnit.isWhitespace_cases space with rfl | rfl | rfl | rfl | rfl <;>
      cases continues

theorem readAttribute_valued (before : Text) {name beforeEquals afterEquals rest : Text}
    (isName : IsAttributeName name) (blankBefore : Blank beforeEquals)
    (blankAfter : Blank afterEquals) (stops : Stops CodeUnit.isWhitespace rest) :
    readAttribute (.between before (name ++ (beforeEquals ++ 0x3D :: (afterEquals ++ rest)))) =
      (do
        let (value, after) ← readValue
          (.between (before ++ (name ++ (beforeEquals ++ 0x3D :: afterEquals))) rest)
        return (⟨name, value⟩, after)) := by
  have toEquals : Stops CodeUnit.isWhitespace (0x3D :: (afterEquals ++ rest)) := rfl
  have pastEquals := Cursor.advance_between (before ++ name ++ beforeEquals) [0x3D]
    (afterEquals ++ rest) 1 rfl
  have toValue := Cursor.skipWhitespace_between (before ++ name ++ beforeEquals ++ [0x3D])
    afterEquals rest blankAfter stops
  have place : before ++ name ++ beforeEquals ++ [0x3D] ++ afterEquals =
      before ++ (name ++ (beforeEquals ++ 0x3D :: afterEquals)) := by simp
  simp only [readAttribute, readAttribute_span before isName (stops_equals blankBefore),
    Cursor.skipWhitespace_between (before ++ name) beforeEquals _ blankBefore toEquals,
    Cursor.between_rest]
  rw [← List.singleton_append, pastEquals, toValue, place]

theorem readAttribute_between (before : Text)
    {next written : Text} {pair : Attribute} (spelled : Pair StartsNothing next pair written)
    (follows : AfterPair next) :
    ∃ after, readAttribute (.between before (written ++ next)) = .ok (pair, after) ∧
      after.skipWhitespace = (Cursor.between (before ++ written) next).skipWhitespace := by
  cases spelled with
  | bare isName =>
    exact ⟨_, readAttribute_bare before isName follows, Cursor.skipWhitespace_skipWhitespace _⟩
  | valued isName blankBefore blankAfter spelledValue =>
    have reads := (readAttribute_valued before isName blankBefore blankAfter
      (stops_value spelledValue)).trans
        (bind_eq_of_ok (readValue_between _ spelledValue (ended_of_afterPair follows)))
    simp only [List.append_assoc, List.cons_append] at reads ⊢
    exact ⟨_, reads, rfl⟩

theorem pair_of_readAttribute (before : Text)
    {next written : Text} {pair : Attribute} {after : Cursor}
    (spelled : Pair StartsNoReference next pair written)
    (success : readAttribute (.between before (written ++ next)) = .ok (pair, after)) :
    Pair StartsNothing next pair written := by
  cases spelled with
  | bare isName => exact .bare isName
  | valued isName blankBefore blankAfter spelledValue =>
    have reads := readAttribute_valued before isName blankBefore blankAfter
      (stops_value spelledValue)
    simp only [List.append_assoc, List.cons_append] at success
    rw [reads] at success
    obtain ⟨⟨found, finish⟩, valued, rest⟩ := ok_of_bind_ok success
    cases rest
    exact .valued isName blankBefore blankAfter (value_of_readValue _ spelledValue valued)

/-! ## Rows of attributes -/

theorem readAttributes_tagEnd {tag : Text} (next : Text) {cursor : Cursor} {tagEnd : TagEnd}
    (shows : cursor.skipWhitespace.rest = tagEndText tagEnd ++ next) :
    readAttributes tag cursor =
      .ok (([], tagEnd), cursor.skipWhitespace.advance (tagEndText tagEnd).length) := by
  rw [readAttributes]
  cases tagEnd <;> split <;> simp_all [tagEndText]

theorem readAttributes_pair {tag more : Text} {cursor : Cursor} {unit : CodeUnit}
    (shows : cursor.skipWhitespace.rest = unit :: more)
    (first : CodeUnit.isAttributeNameUnit unit = true) :
    readAttributes tag cursor =
      (do
        let (entry, after) ← readAttribute cursor.skipWhitespace
        let ((others, tagEnd), finish) ← readAttributes tag after
        return ((entry :: others, tagEnd), finish)) := by
  have notSlash : unit ≠ 0x2F := by
    rintro rfl
    exact absurd first (by decide)
  have notEnd : unit ≠ 0x3E := by
    rintro rfl
    exact absurd first (by decide)
  rw [readAttributes]
  split
  · simp_all
  · simp_all
  · rename_i other
    rw [shows] at other
    cases other
    rw [dif_pos first]
    split <;> rename_i reads <;> rw [reads] <;> rfl
  · simp_all

theorem pair_begins {ampersand : Text → Prop} {next written : Text} {pair : Attribute}
    (spelled : Pair ampersand next pair written) :
    ∃ unit more, written = unit :: more ∧ CodeUnit.isAttributeNameUnit unit = true := by
  cases spelled with
  | bare isName =>
    obtain ⟨unit, more, rfl⟩ := List.exists_cons_of_ne_nil isName.1
    exact ⟨unit, more, rfl, isName.2 unit List.mem_cons_self⟩
  | valued isName _ _ _ =>
    obtain ⟨unit, more, rfl⟩ := List.exists_cons_of_ne_nil isName.1
    exact ⟨unit, _, rfl, isName.2 unit List.mem_cons_self⟩

theorem afterPair_of_pairs {ampersand : Text → Prop} {spaces next written : Text}
    {pairs : List Attribute} {tagEnd : TagEnd} (blank : Blank spaces)
    (spelled : Pairs ampersand (spaces ++ (tagEndText tagEnd ++ next)) pairs written) :
    AfterPair (written ++ (spaces ++ (tagEndText tagEnd ++ next))) := by
  cases spelled with
  | nil => exact .tagEnd blank
  | cons filled blankBefore spelledPair _ =>
    obtain ⟨unit, more, rfl, first⟩ := pair_begins spelledPair
    rw [List.append_assoc]
    exact .pair filled blankBefore first

theorem skipWhitespace_tagEnd (before : Text) {spaces next : Text} {tagEnd : TagEnd}
    (blank : Blank spaces) :
    (Cursor.between before (spaces ++ (tagEndText tagEnd ++ next))).skipWhitespace =
      .between (before ++ spaces) (tagEndText tagEnd ++ next) :=
  Cursor.skipWhitespace_between before spaces _ blank (by cases tagEnd <;> rfl)

theorem skipWhitespace_pair (before : Text) {spaces rest written : Text} {ampersand : Text → Prop}
    {next : Text} {pair : Attribute} (blank : Blank spaces)
    (spelled : Pair ampersand next pair written) :
    (Cursor.between before (spaces ++ (written ++ rest))).skipWhitespace =
      .between (before ++ spaces) (written ++ rest) := by
  obtain ⟨unit, more, rfl, first⟩ := pair_begins spelled
  exact Cursor.skipWhitespace_between before spaces _ blank
    (not_isWhitespace_of_isAttributeNameUnit first)

theorem readAttributes_cons {tag before spaces rest written next : Text} {ampersand : Text → Prop}
    {pair : Attribute} {cursor : Cursor} (blank : Blank spaces)
    (spelled : Pair ampersand next pair written)
    (place : cursor.skipWhitespace =
      (Cursor.between before (spaces ++ (written ++ rest))).skipWhitespace) :
    readAttributes tag cursor =
      (do
        let (entry, after) ← readAttribute (.between (before ++ spaces) (written ++ rest))
        let ((others, tagEnd), finish) ← readAttributes tag after
        return ((entry :: others, tagEnd), finish)) := by
  rw [skipWhitespace_pair before blank spelled] at place
  obtain ⟨unit, more, rfl, first⟩ := pair_begins spelled
  rw [readAttributes_pair (by rw [place]; rfl) first, place]

theorem readAttributes_between (tag before : Text)
    {spaces next written : Text} {pairs : List Attribute} {tagEnd : TagEnd} (blank : Blank spaces)
    (spelled : Pairs StartsNothing (spaces ++ (tagEndText tagEnd ++ next)) pairs written)
    {cursor : Cursor}
    (place : cursor.skipWhitespace =
      (Cursor.between before
        (written ++ (spaces ++ (tagEndText tagEnd ++ next)))).skipWhitespace) :
    readAttributes tag cursor =
      .ok ((pairs, tagEnd),
        .between (before ++ (written ++ (spaces ++ tagEndText tagEnd))) next) := by
  induction spelled generalizing before cursor with
  | nil =>
    rw [List.nil_append, skipWhitespace_tagEnd before blank] at place
    rw [readAttributes_tagEnd next (by rw [place]; rfl), place,
      Cursor.advance_between _ _ next _ rfl]
    simp
  | @cons spaces' written text pair others filled blankBefore spelledPair later ih =>
    have follows := afterPair_of_pairs blank later
    obtain ⟨after, reads, finish⟩ := readAttribute_between (before ++ spaces') spelledPair follows
    rw [List.append_assoc, List.append_assoc] at place
    rw [readAttributes_cons blankBefore spelledPair place, bind_eq_of_ok reads]
    show (readAttributes tag after >>= _) = _
    rw [bind_eq_of_ok (ih _ finish)]
    simp only [List.append_assoc]
    rfl

theorem pairs_of_readAttributes (tag before : Text)
    {spaces next written : Text} {pairs : List Attribute} {tagEnd found : TagEnd}
    (blank : Blank spaces)
    (spelled : Pairs StartsNoReference (spaces ++ (tagEndText tagEnd ++ next)) pairs written)
    {cursor after : Cursor}
    (place : cursor.skipWhitespace =
      (Cursor.between before
        (written ++ (spaces ++ (tagEndText tagEnd ++ next)))).skipWhitespace)
    (success : readAttributes tag cursor = .ok ((pairs, found), after)) :
    Pairs StartsNothing (spaces ++ (tagEndText tagEnd ++ next)) pairs written := by
  induction spelled generalizing before cursor with
  | nil => exact .nil
  | @cons spaces' written text pair others filled blankBefore spelledPair later ih =>
    have follows := afterPair_of_pairs blank later
    rw [List.append_assoc, List.append_assoc] at place
    rw [readAttributes_cons blankBefore spelledPair place] at success
    obtain ⟨⟨entry, middle⟩, first, rest⟩ := ok_of_bind_ok success
    obtain ⟨⟨⟨more, ending⟩, finish⟩, remaining, whole⟩ := ok_of_bind_ok rest
    cases whole
    have strictPair := pair_of_readAttribute _ spelledPair first
    obtain ⟨after, reads, onward⟩ := readAttribute_between (before ++ spaces') strictPair follows
    rw [first] at reads
    cases reads
    exact .cons filled blankBefore strictPair (ih _ onward remaining)

/-! ## Tags -/

theorem allOf_of_isTagName {tag : Text} (isName : IsTagName tag) :
    Text.AllOf CodeUnit.isNameUnit tag := by
  cases tag with
  | nil => exact Text.allOf_nil _
  | cons unit more =>
    obtain ⟨first, others⟩ := isName
    have letter : CodeUnit.isLetter unit = true := first
    refine (Text.allOf_cons _ _ _).mpr ⟨?_, others⟩
    simp [CodeUnit.isNameUnit, CodeUnit.isIdentifierUnit, letter]

theorem readTagName_between (before : Text) {tag next : Text} (isName : IsTagName tag)
    (stops : Stops CodeUnit.isNameUnit next) :
    readTagName (.between before (tag ++ next)) = some (tag, .between (before ++ tag) next) := by
  have span := Cursor.span_between _ before tag next (allOf_of_isTagName isName) stops
  cases tag with
  | nil => exact absurd isName id
  | cons unit more =>
    have first : CodeUnit.startsTagName unit = true := isName.1
    rw [← span]
    simp only [readTagName, Cursor.between_rest, List.cons_append, first, if_true]

theorem opening_advance (before rest : Text) :
    (Cursor.between before (0x3C :: rest)).advance 1 = .between (before ++ [0x3C]) rest :=
  Cursor.advance_between before [0x3C] rest 1 rfl

theorem readStartTag_name (before : Text) {tag rest : Text} (isName : IsTagName tag)
    (stops : Stops CodeUnit.isNameUnit rest) :
    readStartTag (.between before (0x3C :: (tag ++ rest))) =
      (do
        let ((attributes, tagEnd), after) ← readAttributes tag
          (.between (before ++ 0x3C :: tag) rest)
        return (⟨tag, attributes, tagEnd⟩, after)) := by
  have span := Cursor.span_between _ (before ++ [0x3C]) tag rest (allOf_of_isTagName isName) stops
  have place : before ++ [0x3C] ++ tag = before ++ 0x3C :: tag := by simp
  simp only [readStartTag, opening_advance, span, place]

theorem readStartTag_between (before : Text)
    {next written : Text} {startTag : StartTag}
    (spelled : StartTagText StartsNothing next startTag written) :
    readStartTag (.between before (written ++ next)) =
      .ok (startTag, .between (before ++ written) next) := by
  cases spelled with
  | @spaced tag written spaces pairs tagEnd isName blank spelledPairs =>
    have stops := stops_nameUnit_of_afterPair (afterPair_of_pairs blank spelledPairs)
    have reads := readAttributes_between tag (before ++ 0x3C :: tag) blank spelledPairs rfl
    simp only [List.cons_append, List.append_assoc] at reads ⊢
    rw [readStartTag_name before isName stops, bind_eq_of_ok reads]
    rfl

theorem startTagText_of_readStartTag (before : Text)
    {next tag written : Text} {pairs : List Attribute} {tagEnd found : TagEnd} {after : Cursor}
    (spelled : StartTagText StartsNoReference next ⟨tag, pairs, tagEnd⟩ written)
    (success : readStartTag (.between before (written ++ next)) =
      .ok (⟨tag, pairs, found⟩, after)) :
    StartTagText StartsNothing next ⟨tag, pairs, tagEnd⟩ written := by
  cases spelled with
  | @spaced _ written spaces _ _ isName blank spelledPairs =>
    have stops := stops_nameUnit_of_afterPair (afterPair_of_pairs blank spelledPairs)
    simp only [List.cons_append, List.append_assoc] at success
    rw [readStartTag_name before isName stops] at success
    obtain ⟨⟨⟨attributes, ending⟩, finish⟩, reads, rest⟩ := ok_of_bind_ok success
    cases rest
    exact .spaced isName blank (pairs_of_readAttributes tag _ blank spelledPairs rfl reads)

theorem readEndTag_between (before : Text) {tag written : Text} (next : Text)
    (spelled : EndTagText tag written) :
    readEndTag tag (.between before (written ++ next)) =
      .ok (.between (before ++ written) next) := by
  cases spelled with
  | @spaced name spaces isName same blank =>
    have opening := Cursor.advance_between before [0x3C, 0x2F]
      (name ++ (spaces ++ 0x3E :: next)) 2 rfl
    have follows : AfterPair (spaces ++ (tagEndText .plain ++ next)) := .tagEnd blank
    have stops : Stops CodeUnit.isNameUnit (spaces ++ 0x3E :: next) :=
      stops_nameUnit_of_afterPair follows
    have named := readTagName_between (before ++ [0x3C, 0x2F]) isName stops
    have toEnd := Cursor.skipWhitespace_between (before ++ [0x3C, 0x2F] ++ name) spaces
      (0x3E :: next) blank rfl
    have pastEnd := Cursor.advance_between (before ++ [0x3C, 0x2F] ++ name ++ spaces) [0x3E] next 1
      rfl
    simp only [List.cons_append, List.append_assoc, List.nil_append]
      at opening named toEnd pastEnd ⊢
    simp only [readEndTag, Cursor.between_rest, opening, named, toEnd, same, if_true, pastEnd]

end HtmlFragments.Markup
