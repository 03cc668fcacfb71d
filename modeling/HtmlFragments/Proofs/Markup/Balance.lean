import HtmlFragments.Proofs.Markup.Descent

/-! # Balanced tags

A source is a row of tokens, each of which can be read without knowing what is open around it. Main
result: a source is a document exactly when it is such a row and its start and end tags are balanced;
the two ways to read it agree on the document, and on the failure where there is none. -/
set_option autoImplicit false

namespace HtmlFragments

namespace Markup

inductive Token where
  | aside
  | text (value : Text)
  /-- A start tag. Where it makes a complete element, all of that is one token. -/
  | opening (made : Opening)
  | closing (name : Text)
deriving DecidableEq, Repr

def readClosing (cursor : Cursor) : Option (Text × Cursor) :=
  match cursor.rest with
  | 0x3C :: 0x2F :: _ =>
    match readTagName (cursor.advance 2) with
    | some (name, afterName) =>
      match afterName.skipWhitespace.rest with
      | 0x3E :: _ => some (name, afterName.skipWhitespace.advance 1)
      | _ => none
    | none => none
  | _ => none

def readToken (lowered : Text) (cursor : Cursor) : Option (Token × Cursor) :=
  match Construct.ofText cursor.rest with
  | .endTag => (readClosing cursor).map fun found => (.closing found.1, found.2)
  | .comment => (skipComment cursor).toOption.map fun after => (.aside, after)
  | .declaration => (skipDeclaration cursor).toOption.map fun after => (.aside, after)
  | .startTag =>
    (readOpening lowered cursor).toOption.map fun found => (.opening found.1, found.2)
  | .text => some (.text (readText cursor).1, (readText cursor).2)

inductive Tokenizes (lowered : Text) : Cursor → List Token → Prop where
  | done {cursor : Cursor} : cursor.rest = [] → Tokenizes lowered cursor []
  | more {cursor after : Cursor} {token : Token} {tokens : List Token} :
      cursor.rest ≠ [] → readToken lowered cursor = some (token, after) →
      Tokenizes lowered after tokens → Tokenizes lowered cursor (token :: tokens)

/-- The start and end tags among the tokens are balanced, and the tokens make these nodes. -/
inductive Balanced : List Token → List Node → Prop where
  | nil : Balanced [] []
  | aside {tokens : List Token} {nodes : List Node} :
      Balanced tokens nodes → Balanced (.aside :: tokens) nodes
  | text {value : Text} {tokens : List Token} {nodes : List Node} :
      Balanced tokens nodes → Balanced (.text value :: tokens) (.text value :: nodes)
  | complete {node : Node} {tokens : List Token} {nodes : List Node} :
      Balanced tokens nodes → Balanced (.opening (.complete node) :: tokens) (node :: nodes)
  | element {tag name : Text} {attributes : List Attribute} {inner tokens : List Token}
      {children nodes : List Node} :
      Balanced inner children → Text.sameUpToCase name tag = true → Balanced tokens nodes →
      Balanced (.opening (.content tag attributes) :: (inner ++ .closing name :: tokens))
        (.element tag attributes children :: nodes)

namespace Progress

/-- Takes in a token. An end tag has to name the innermost open element. -/
def take (progress : Progress) : Token → Option Progress
  | .aside => some progress
  | .text value => some (progress.add (.text value))
  | .opening made => some (progress.enter made)
  | .closing name =>
    match progress.openElements with
    | [] => none
    | inner :: outer =>
      let outside : Progress := { progress with openElements := outer }
      if Text.sameUpToCase name inner.tag then
        some (outside.add (.element inner.tag inner.attributes inner.children.reverse))
      else none

end Progress

/-! ## A step takes in a token -/

theorem toOption_eq_some_iff {Item : Type} {reading : Reading Item} {item : Item} :
    reading.toOption = some item ↔ reading = .ok item := by
  cases reading <;> simp [Except.toOption]

theorem toOption_bind_pure {Item Value : Type} (reading : Reading Item) (change : Item → Value) :
    (reading >>= fun item => pure (change item)).toOption = reading.toOption.map change := by
  cases reading <;> rfl

theorem readEndTag_eq_ok_iff {tag : Text} {cursor after : Cursor} :
    readEndTag tag cursor = .ok after ↔
      ∃ name, readClosing cursor = some (name, after) ∧ Text.sameUpToCase name tag = true := by
  constructor
  · intro success
    unfold readEndTag at success
    split at success
    · rename_i opening
      split at success
      · rename_i name afterName found
        split at success
        · rename_i ending
          split at success
          · rename_i same
            cases success
            exact ⟨name, by simp only [readClosing, opening, found, ending], same⟩
          · cases success
        · cases success
      · cases success
    · cases success
  · rintro ⟨name, reads, same⟩
    unfold readClosing at reads
    split at reads
    · rename_i opening
      split at reads
      · rename_i found
        split at reads
        · rename_i ending
          cases reads
          simp only [readEndTag, opening, found, ending, same, if_true]
        · cases reads
      · cases reads
    · cases reads

theorem toOption_readEndTag (tag : Text) (cursor : Cursor) :
    (readEndTag tag cursor).toOption = (readClosing cursor).bind fun found =>
      if Text.sameUpToCase found.1 tag then some found.2 else none := by
  ext after
  rw [toOption_eq_some_iff, readEndTag_eq_ok_iff, Option.bind_eq_some_iff]
  constructor
  · rintro ⟨name, closes, same⟩
    exact ⟨(name, after), closes, if_pos same⟩
  · rintro ⟨⟨name, place⟩, closes, taken⟩
    split at taken
    · rename_i same
      cases taken
      exact ⟨name, closes, same⟩
    · cases taken

namespace Progress

theorem toOption_leave (progress : Progress) (cursor : Cursor) :
    (progress.leave cursor).toOption = (readClosing cursor).bind fun found =>
      (progress.take (.closing found.1)).map fun next => (next, found.2) := by
  obtain ⟨openElements, finished⟩ := progress
  cases openElements with
  | nil => cases readClosing cursor <;> rfl
  | cons inner outer =>
    simp only [leave, take]
    rw [toOption_bind_pure, toOption_readEndTag, Option.map_bind]
    congr 1
    funext found
    dsimp only [Function.comp]
    split <;> rfl

/-- A step of the loop is a token that fits what is open. -/
theorem toOption_step (lowered : Text) (progress : Progress) (cursor : Cursor) :
    (progress.step lowered cursor).toOption = (readToken lowered cursor).bind fun found =>
      (progress.take found.1).map fun next => (next, found.2) := by
  cases shows : Construct.ofText cursor.rest with
  | endTag =>
    simp only [step, readToken, shows, toOption_leave, Option.bind_map]
    rfl
  | comment =>
    simp only [step, readToken, shows]
    cases skipComment cursor <;> rfl
  | declaration =>
    simp only [step, readToken, shows]
    cases skipDeclaration cursor <;> rfl
  | startTag =>
    simp only [step, readToken, shows]
    cases readOpening lowered cursor <;> rfl
  | text =>
    simp only [step, readToken, shows]
    rfl

/-! ## A run takes in a row of tokens -/

def takeAll : Progress → List Token → Option Progress
  | progress, [] => some progress
  | progress, token :: tokens => (progress.take token).bind fun next => next.takeAll tokens

theorem takeAll_append (progress : Progress) (first second : List Token) :
    progress.takeAll (first ++ second) = (progress.takeAll first).bind (·.takeAll second) := by
  induction first generalizing progress with
  | nil => rfl
  | cons token tokens ih =>
    rw [List.cons_append, takeAll, takeAll, Option.bind_assoc]
    exact Option.bind_congr fun next _ => ih next

theorem step_eq_ok_iff {lowered : Text} {progress next : Progress} {cursor after : Cursor} :
    progress.step lowered cursor = .ok (next, after) ↔
      ∃ token, readToken lowered cursor = some (token, after) ∧
        progress.take token = some next := by
  rw [← toOption_eq_some_iff, toOption_step]
  simp only [Option.bind_eq_some_iff, Option.map_eq_some_iff, Prod.mk.injEq]
  constructor
  · rintro ⟨⟨token, place⟩, reads, result, taken, rfl, rfl⟩
    exact ⟨token, reads, taken⟩
  · rintro ⟨token, reads, taken⟩
    exact ⟨(token, after), reads, next, taken, rfl, rfl⟩

/-- The loop ends well where the tokens leave no element open. -/
theorem run_eq_ok_iff {lowered : Text} {progress : Progress} {cursor : Cursor}
    {nodes : List Node} :
    progress.run lowered cursor = .ok nodes ↔
      ∃ tokens, Tokenizes lowered cursor tokens ∧
        progress.takeAll tokens = some ⟨[], nodes.reverse⟩ := by
  constructor
  · intro success
    fun_induction run lowered progress cursor with
    | case1 progress cursor shows =>
      obtain ⟨openElements, finished⟩ := progress
      cases openElements with
      | nil =>
        cases success
        exact ⟨[], .done shows, by rw [takeAll, List.reverse_reverse]⟩
      | cons inner outer => cases success
    | case2 => cases success
    | case3 progress cursor unit rest shows next after steps ih =>
      obtain ⟨token, reads, taken⟩ := step_eq_ok_iff.mp steps
      obtain ⟨tokens, row, takes⟩ := ih success
      refine ⟨token :: tokens, .more (by simp [shows]) reads row, ?_⟩
      rw [takeAll, taken, Option.bind_some, takes]
  · rintro ⟨tokens, row, takes⟩
    induction row generalizing progress with
    | done shows =>
      rw [takeAll] at takes
      cases takes
      rw [run_of_end _ shows, finish, List.reverse_reverse]
    | more filled reads _ ih =>
      obtain ⟨next, taken, takes⟩ := Option.bind_eq_some_iff.mp takes
      rw [run_of_step filled (step_eq_ok_iff.mpr ⟨_, reads, taken⟩)]
      exact ih takes

/-! ## Tokens that leave no element open are balanced -/

theorem takeAll_of_balanced {tokens : List Token} {nodes : List Node}
    (balanced : Balanced tokens nodes) (progress : Progress) :
    progress.takeAll tokens = some (progress.addAll nodes) := by
  induction balanced generalizing progress with
  | nil => rfl
  | aside _ ih => exact ih progress
  | text _ ih => exact ih (progress.add _)
  | complete _ ih => exact ih (progress.add _)
  | @element tag name attributes inner tokens children nodes _ same _ ihInner ih =>
    have closes : ((progress.enter (.content tag attributes)).addAll children).take
        (.closing name) = some (progress.add (.element tag attributes children)) := by
      rw [enter, addAll_inner, take]
      simp only [same, if_true, List.append_nil, List.reverse_reverse]
    rw [takeAll, take, Option.bind_some, takeAll_append, ihInner, Option.bind_some, takeAll, closes,
      Option.bind_some, ih, addAll_cons]

/-- The tokens close all open elements, each after balanced content, and give the outcome. -/
inductive Completes (outcome : List Node) : Progress → List Token → Prop where
  | top {finished nodes : List Node} {tokens : List Token} :
      Balanced tokens nodes → finished.reverse ++ nodes = outcome →
      Completes outcome ⟨[], finished⟩ tokens
  | inside {tag name : Text} {attributes : List Attribute} {children nodes finished : List Node}
      {outer : List OpenElement} {inner tokens : List Token} :
      Balanced inner nodes → Text.sameUpToCase name tag = true →
      Completes outcome
        ((Progress.mk outer finished).add (.element tag attributes (children.reverse ++ nodes)))
        tokens →
      Completes outcome ⟨⟨tag, attributes, children⟩ :: outer, finished⟩
        (inner ++ .closing name :: tokens)

/-- Tokens that make one node can stand in front, and the node is then one of the content. -/
theorem completes_of_add {outcome : List Node} {progress : Progress} {node : Node}
    (front : List Token) {tokens : List Token}
    (makes : ∀ others nodes, Balanced others nodes → Balanced (front ++ others) (node :: nodes))
    (completes : Completes outcome (progress.add node) tokens) :
    Completes outcome progress (front ++ tokens) := by
  obtain ⟨openElements, finished⟩ := progress
  cases openElements with
  | nil =>
    cases completes with
    | top balanced whole =>
      rw [List.reverse_cons, List.append_assoc] at whole
      exact .top (makes _ _ balanced) whole
  | cons inner outer =>
    cases completes with
    | inside balanced same further =>
      rw [List.reverse_cons, List.append_assoc] at further
      rw [← List.append_assoc]
      exact .inside (makes _ _ balanced) same further

theorem completes_of_take {outcome : List Node} {progress next : Progress} {token : Token}
    {tokens : List Token} (taken : progress.take token = some next)
    (completes : Completes outcome next tokens) : Completes outcome progress (token :: tokens) := by
  cases token with
  | aside =>
    cases taken
    cases completes with
    | top balanced whole => exact .top (.aside balanced) whole
    | inside balanced same further => exact .inside (.aside balanced) same further
  | text value =>
    cases taken
    exact completes_of_add [.text value] (fun _ _ => .text) completes
  | opening made =>
    cases taken
    cases made with
    | complete node =>
      exact completes_of_add [.opening (.complete node)] (fun _ _ => .complete) completes
    | content tag attributes =>
      cases completes with
      | @inside _ name _ _ children _ _ inner _ balanced same further =>
        have makes : ∀ others nodes, Balanced others nodes →
            Balanced ((.opening (.content tag attributes) :: (inner ++ [.closing name])) ++ others)
              (.element tag attributes children :: nodes) := by
          intro others nodes rest
          rw [List.cons_append, List.append_assoc]
          exact .element balanced same rest
        have whole := completes_of_add _ makes further
        rw [List.cons_append, List.append_assoc] at whole
        exact whole
  | closing name =>
    obtain ⟨openElements, finished⟩ := progress
    cases openElements with
    | nil => cases taken
    | cons inner outer =>
      simp only [take] at taken
      split at taken
      · rename_i same
        cases taken
        exact .inside .nil same (by simpa using completes)
      · cases taken

theorem completes_of_takeAll {outcome : List Node} {progress : Progress} {tokens : List Token}
    (takes : progress.takeAll tokens = some ⟨[], outcome.reverse⟩) :
    Completes outcome progress tokens := by
  induction tokens generalizing progress with
  | nil =>
    cases takes
    exact .top .nil (by simp)
  | cons token tokens ih =>
    obtain ⟨next, taken, takes⟩ := Option.bind_eq_some_iff.mp takes
    exact completes_of_take taken (ih takes)

theorem takeAll_start_iff {tokens : List Token} {nodes : List Node} :
    Progress.start.takeAll tokens = some ⟨[], nodes.reverse⟩ ↔ Balanced tokens nodes := by
  constructor
  · intro takes
    cases completes_of_takeAll takes with
    | top balanced whole => exact whole ▸ balanced
  · intro balanced
    rw [takeAll_of_balanced balanced, start, addAll_top, List.append_nil]

end Progress

end Markup

/-- Main result. Reading by recursive descent and reading in a loop with a stack of open elements
agree on every source. A document is read exactly where the source is a row of well-formed tokens
with balanced start and end tags, and it is the one that they make. -/
theorem Document.descend_eq_parse_and_balanced (source : Text) :
    descend source = parse source ∧
      ∀ nodes, parse source = .ok ⟨nodes⟩ ↔
        ∃ tokens, Markup.Tokenizes source.lowerCase (contentStart source) tokens ∧
          Markup.Balanced tokens nodes := by
  refine ⟨(parse_eq_descend source).symm, ?_⟩
  intro nodes
  rw [Document.parse_eq_ok, Document.readNodes, Markup.Progress.run_eq_ok_iff]
  simp only [Markup.Progress.takeAll_start_iff]

end HtmlFragments
