import HtmlFragments.Text.Basic

/-! # Log levels

A log writes the entries that are at least as severe as its own level. -/
set_option autoImplicit false

namespace HtmlFragments

inductive Level where
  | error
  | warn
  | info
  | http
  | verbose
  | debug
  | silly
deriving DecidableEq, Repr

namespace Level

def name : Level → Text
  | .error => Text.ofString "error"
  | .warn => Text.ofString "warn"
  | .info => Text.ofString "info"
  | .http => Text.ofString "http"
  | .verbose => Text.ofString "verbose"
  | .debug => Text.ofString "debug"
  | .silly => Text.ofString "silly"

def rank : Level → Nat
  | .error => 0
  | .warn => 1
  | .info => 2
  | .http => 3
  | .verbose => 4
  | .debug => 5
  | .silly => 6

def table : NameTable Level :=
  [Level.error, .warn, .info, .http, .verbose, .debug, .silly].map fun level => (level.name, level)

end Level

/-- The level of a log. A member of the table of levels is a name for a level too, and has no rank
but a text. -/
inductive Threshold where
  | upTo (level : Level)
  | member (name text : Text)
deriving DecidableEq, Repr

namespace Threshold

def standard : Threshold := .upTo .warn

def variableName : Text := Text.ofString "HTML_SEARCH_LOG_LEVEL"

def ofName (name : Option Text) : Threshold :=
  match name with
  | none => standard
  | some name =>
    match Level.table.find? name with
    | some (.entry level) => .upTo level
    | some (.member text) => .member name text
    | none => standard

/-- A verbose run logs everything down to debug entries, whatever the environment says. -/
def choose (verbose : Bool) (environment : List (Text × Text)) : Threshold :=
  if verbose then .upTo .debug else ofName (environment.lookup variableName)

def name : Threshold → Text
  | .upTo level => level.name
  | .member name _ => name

/-- Levels are compared by rank and members by their texts. A level and a member have nothing to be
compared by. -/
def admits (threshold : Threshold) (level : NameTable.Binding Level) : Bool :=
  match threshold, level with
  | .upTo least, .entry level => level.rank ≤ least.rank
  | .member _ text, .member other => !Text.precedes text other
  | _, _ => false

end Threshold
end HtmlFragments
