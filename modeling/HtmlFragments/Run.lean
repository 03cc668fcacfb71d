import HtmlFragments.CommandLine.Arguments
import HtmlFragments.Results
import HtmlFragments.Selector.Reading

/-! # A run of the program

A run goes from arguments to printed matches and stops at its first failure, of which nothing but a
message on the error stream is seen. Its surroundings are given as a value, and so is all it does. -/
set_option autoImplicit false

namespace HtmlFragments

structure Surroundings where
  storage : Storage
  environment : List (Text × Text)
  colouredOutput : Bool
  colouredErrors : Bool

structure Outcome where
  exitCode : Nat
  output : Text
  errors : Text
  events : List Event
  calls : List Call
  /-- The level of the log, once the arguments were understood. -/
  threshold : Option Threshold

namespace Outcome

def logLines (outcome : Outcome) (time : Text) : List Text :=
  match outcome.threshold with
  | none => []
  | some threshold => HtmlFragments.logLines threshold false time (outcome.events.map Event.entry)

end Outcome

namespace Run

def argumentFailure (program : Text) (error : ArgumentError) : Text :=
  error.message ++ Text.ofString "\nRun \"" ++ program ++ Text.ofString " --help\" for usage."

def queryFailure (query : Text) (error : ParseError) : Text :=
  Text.ofString "Invalid query " ++ query.quoted ++ Text.ofString ": " ++ error.message

def failed (surroundings : Surroundings) (message : Text) (events : List Event)
    (calls : List Call) (threshold : Option Threshold) : Outcome where
  exitCode := 1
  output := []
  errors := Colour.paint surroundings.colouredErrors .red message ++ [0x0A]
  events := events
  calls := calls
  threshold := threshold

/-- A run that has loaded all its inputs prints the matches that it finds in them. -/
def finished (surroundings : Surroundings) (request : SearchRequest) (query : Query)
    (documents : List NamedDocument) (events : List Event) (calls : List Call)
    (threshold : Threshold) : Outcome :=
  let found := query.searchAll documents
  let shown := (Limit.ofCount request.maxResults).apply found
  { exitCode := 0
    output := shown.flatMap (Match.printed surroundings.colouredOutput)
    errors := []
    events := events ++ [.searchComplete documents.length found.length shown.length]
    calls := calls
    threshold := threshold }

def searchInputs (surroundings : Surroundings) (request : SearchRequest) (query : Query)
    (threshold : Threshold) : Except Fault Outcome := do
  let loading ← Loading.loadDocuments surroundings.storage request.inputs
  let events := .queryParsed query.text :: loading.events
  match loading.outcome with
  | .error error => return failed surroundings error.message events loading.calls threshold
  | .ok documents =>
    return finished surroundings request query documents events loading.calls threshold

def search (surroundings : Surroundings) (request : SearchRequest) : Except Fault Outcome :=
  let threshold := Threshold.choose request.verbose surroundings.environment
  match Query.parse request.query with
  | .error error =>
    .ok (failed surroundings (queryFailure request.query error) [] [] threshold)
  | .ok query => searchInputs surroundings request query threshold

/-- The inputs that a run with the given arguments loads, if it gets so far. -/
def inputs? (arguments : List Text) : Option Inputs :=
  match Arguments.parse arguments with
  | .ok (.search request) =>
    match Query.parse request.query with
    | .ok _ => some request.inputs
    | .error _ => none
  | _ => none

def run (program : Text) (arguments : List Text) (surroundings : Surroundings) :
    Except Fault Outcome :=
  match Arguments.parse arguments with
  | .error error => .ok (failed surroundings (argumentFailure program error) [] [] none)
  | .ok .help => .ok ⟨0, usage program, [], [], [], none⟩
  | .ok (.search request) => search surroundings request

end Run
end HtmlFragments
