import HtmlFragments.Markup.Construct

/-! # Reading a document

The text of a document gives its forest of nodes, or the first place where it is malformed. Content
is read one construct at a time. A start tag opens an element, its end tag closes the innermost open
one and hands it to the element around it, and at the end of the source no element may be open. -/
set_option autoImplicit false

namespace HtmlFragments.Markup

/-! ## Open elements -/

/-- An element whose end tag is still to come, with its children so far, newest first. -/
structure OpenElement where
  tag : Text
  attributes : List Attribute
  children : List Node
deriving DecidableEq, Repr

/-- What has been read of a document: the open elements, innermost first, and the finished
top-level nodes, newest first. -/
structure Progress where
  openElements : List OpenElement
  finished : List Node
deriving DecidableEq, Repr

namespace Progress

def start : Progress := ⟨[], []⟩

def add (progress : Progress) (node : Node) : Progress :=
  match progress.openElements with
  | [] => { progress with finished := node :: progress.finished }
  | inner :: outer =>
    { progress with openElements := { inner with children := node :: inner.children } :: outer }

def enter (progress : Progress) : Opening → Progress
  | .complete node => progress.add node
  | .content tag attributes =>
    { progress with openElements := ⟨tag, attributes, []⟩ :: progress.openElements }

def leave (progress : Progress) (cursor : Cursor) : Reading (Progress × Cursor) :=
  match progress.openElements with
  | [] => .error ⟨.textOrOpeningTag, cursor.position⟩
  | inner :: outer => do
    let after ← readEndTag inner.tag cursor
    let outside : Progress := { progress with openElements := outer }
    return (outside.add (.element inner.tag inner.attributes inner.children.reverse), after)

def step (lowered : Text) (progress : Progress) (cursor : Cursor) :
    Reading (Progress × Cursor) :=
  match Construct.ofText cursor.rest with
  | .endTag => progress.leave cursor
  | .comment => do return (progress, ← skipComment cursor)
  | .declaration => do return (progress, ← skipDeclaration cursor)
  | .startTag => do
    let (opening, after) ← readOpening lowered cursor
    return (progress.enter opening, after)
  | .text => .ok (progress.add (.text (readText cursor).1), (readText cursor).2)

/-- At the end of the source: all nodes, unless an element is still open. -/
def finish (progress : Progress) (cursor : Cursor) : Reading (List Node) :=
  match progress.openElements with
  | [] => .ok progress.finished.reverse
  | inner :: _ => .error ⟨.endTag inner.tag, cursor.position⟩

theorem leave_remaining_lt {progress next : Progress} {cursor after : Cursor}
    (success : progress.leave cursor = .ok (next, after)) :
    after.remaining < cursor.remaining := by
  unfold leave at success
  split at success
  · cases success
  · obtain ⟨finish, closed, rest⟩ := ok_of_bind_ok success
    cases rest
    exact readEndTag_remaining_lt closed

theorem step_remaining_lt {lowered : Text} {progress next : Progress} {cursor after : Cursor}
    (nonempty : 0 < cursor.remaining)
    (success : progress.step lowered cursor = .ok (next, after)) :
    after.remaining < cursor.remaining := by
  unfold step at success
  split at success
  · exact leave_remaining_lt success
  · obtain ⟨finish, skipped, rest⟩ := ok_of_bind_ok success
    cases rest
    exact skipComment_remaining_lt nonempty skipped
  · obtain ⟨finish, skipped, rest⟩ := ok_of_bind_ok success
    cases rest
    exact skipDeclaration_remaining_lt nonempty skipped
  · obtain ⟨⟨opening, finish⟩, opened, rest⟩ := ok_of_bind_ok success
    cases rest
    exact readOpening_remaining_lt nonempty opened
  · rename_i text
    cases success
    exact readText_remaining_lt nonempty text

def run (lowered : Text) (progress : Progress) (cursor : Cursor) : Reading (List Node) :=
  match _shows : cursor.rest with
  | [] => progress.finish cursor
  | _ :: _ =>
    match _success : progress.step lowered cursor with
    | .error failure => .error failure
    | .ok (next, after) => run lowered next after
termination_by cursor.remaining
decreasing_by exact step_remaining_lt (by simp [Cursor.remaining, _shows]) _success

end Progress
end HtmlFragments.Markup

/-! ## Documents -/

namespace HtmlFragments.Document

/-- A byte order mark at the start of a source is no part of the document. -/
def contentStart (source : Text) : Cursor :=
  match source with
  | 0xFEFF :: _ => (Cursor.start source).advance 1
  | _ => Cursor.start source

def readNodes (source : Text) : Markup.Reading (List Node) :=
  Markup.Progress.start.run source.lowerCase (contentStart source)

def parse (source : Text) : Except ParseError Document := do
  let nodes ← ParseError.locate source Markup.Expectation.text (readNodes source)
  return ⟨nodes⟩

theorem parse_eq_ok {source : Text} {nodes : List Node} :
    parse source = .ok ⟨nodes⟩ ↔ readNodes source = .ok nodes := by
  constructor
  · intro success
    obtain ⟨found, located, made⟩ := ok_of_bind_ok success
    cases made
    exact ParseError.locate_eq_ok.mp located
  · intro reads
    rw [parse, ParseError.locate_eq_ok.mpr reads]
    rfl

end HtmlFragments.Document
