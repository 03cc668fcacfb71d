import HtmlFragments.Inputs.Loading
import HtmlFragments.Selector.Search

/-! # Matches and how they are printed

Every match carries the path of the input it was found in. Inputs keep their order, and a limit
counts over all of them together. For a terminal the paths are painted. -/
set_option autoImplicit false

namespace HtmlFragments

structure Match where
  path : Text
  element : Element
deriving DecidableEq, Repr

def Query.searchAll (query : Query) (inputs : List NamedDocument) : List Match :=
  inputs.flatMap fun input => (query.search input.document).map fun element => ⟨input.path, element⟩

/-- How many of a row of results are kept. -/
inductive Limit where
  | all
  | first (count : Nat)
  | allButLast (count : Nat)
deriving DecidableEq, Repr

namespace Limit

/-- A negative number counts from the end. -/
def ofInt : Int → Limit
  | .ofNat count => .first count
  | .negSucc count => .allButLast (count + 1)

def ofCount (count : Option Binary64) : Limit :=
  match count.bind Binary64.floor? with
  | some number => .first number
  | none => .all

def apply {Item : Type} (limit : Limit) (items : List Item) : List Item :=
  match limit with
  | .all => items
  | .first count => items.take count
  | .allButLast count => items.take (items.length - count)

end Limit

/-! ## Painting

A painted text stands between the code that turns a colour on and the code that turns it off. The
colour is turned off before a line break and on again after it, and on again after every code in
the text itself that turns it off. -/

inductive Colour where
  | cyan
  | red
deriving DecidableEq, Repr

namespace Colour

def code : Colour → Text
  | .cyan => 0x1B :: Text.ofString "[36m"
  | .red => 0x1B :: Text.ofString "[31m"

def endCode : Text := 0x1B :: Text.ofString "[39m"

/-- Turns the colour on again after every end code of the text. -/
def reopen (colour : Colour) : Text → Text
  | 0x1B :: 0x5B :: 0x33 :: 0x39 :: 0x6D :: rest => endCode ++ colour.code ++ reopen colour rest
  | unit :: rest => unit :: reopen colour rest
  | [] => []

def interrupt (colour : Colour) : Text → Text
  | 0x0D :: 0x0A :: rest => endCode ++ [0x0D, 0x0A] ++ colour.code ++ interrupt colour rest
  | 0x0A :: rest => endCode ++ [0x0A] ++ colour.code ++ interrupt colour rest
  | unit :: rest => unit :: interrupt colour rest
  | [] => []

def paint (shown : Bool) (colour : Colour) (text : Text) : Text :=
  if !shown || text.isEmpty then text
  else colour.code ++ interrupt colour (reopen colour text) ++ endCode

end Colour

def Match.printed (coloured : Bool) (found : Match) : Text :=
  Colour.paint coloured .cyan found.path ++ [0x0A] ++ found.element.markup ++ [0x0A, 0x0A]

end HtmlFragments
