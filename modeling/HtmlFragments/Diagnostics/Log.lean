import HtmlFragments.Diagnostics.Json
import HtmlFragments.Diagnostics.Level

/-! # Log lines

An entry becomes one line: the time, the level, the message and the details, if there are any. An
entry at a level that is not known becomes a line that says so. -/
set_option autoImplicit false

namespace HtmlFragments

structure LogEntry where
  level : Text
  message : Text
  details : Json

namespace LogEntry

/-- What makes a percent sign before it a place for a value. -/
def placeUnits : Text := Text.ofString "scdjifoO%"

def hasPlace : Text → Bool
  | [] => false
  | unit :: rest => (unit == 0x25 && rest.head?.any placeUnits.contains) || hasPlace rest

/-- The fields that the details bring to the line. A message with places for values wants its
details there, and the line has no fields. -/
def fields (entry : LogEntry) : List (Text × Json) :=
  if hasPlace entry.message then [] else entry.details.fields

def messageField : Text := Text.ofString "message"

def ancestorField : Text := Text.ofString "__proto__"

def fullMessage (entry : LogEntry) : Text :=
  match entry.fields.lookup messageField with
  | none => entry.message
  | some extra =>
    if extra.isBlank then entry.message else entry.message ++ [0x20] ++ extra.plain

def isException (entry : LogEntry) : Bool :=
  let ancestors := (entry.fields.lookup ancestorField).elim [] Json.fields
  match (entry.fields ++ ancestors).lookup (Text.ofString "exception") with
  | some (.boolean value) => value
  | _ => false

/-- The fields that are not shown among the details: the line has its own, or none at all. -/
def hiddenFields : List Text :=
  [Text.ofString "timestamp", Text.ofString "level", messageField, ancestorField]

def shownFields (entry : LogEntry) : List (Text × Json) :=
  entry.fields.filter fun field => !hiddenFields.contains field.1

def line (time : Text) (entry : LogEntry) : Text :=
  time ++ Text.ofString " [" ++ entry.level ++ Text.ofString "]: " ++ entry.fullMessage ++
    (if entry.shownFields.isEmpty then []
      else Text.ofString " " ++ (Json.object entry.shownFields).compact) ++ [0x0A]

def unknownLevelLine (level : Text) : Text :=
  Text.ofString "[winston] Unknown logger level: " ++ level ++ [0x0A]

def line? (threshold : Threshold) (time : Text) (entry : LogEntry) : Option Text :=
  match Level.table.find? entry.level with
  | none => some (unknownLevelLine entry.level)
  | some level =>
    if threshold.admits level && !entry.isException then some (entry.line time) else none

end LogEntry

def logLines (threshold : Threshold) (silent : Bool) (time : Text) (entries : List LogEntry) :
    List Text :=
  if silent then [] else entries.filterMap (LogEntry.line? threshold time)

/-! ## Events of a run

What a run reports about itself. Every event is a debug entry of the log. -/

inductive Event where
  | queryParsed (query : Text)
  | readingStandardInput
  | fileRead (path : Text) (length : Nat)
  | searchComplete (files found shown : Nat)
deriving DecidableEq, Repr

namespace Event

def message : Event → Text
  | .queryParsed _ => Text.ofString "parsed query"
  | .readingStandardInput => Text.ofString "reading standard input"
  | .fileRead .. => Text.ofString "read file"
  | .searchComplete .. => Text.ofString "search complete"

def details : Event → List (Text × Json)
  | .queryParsed query => [(Text.ofString "query", .text query)]
  | .readingStandardInput => []
  | .fileRead path length =>
    [(Text.ofString "path", .text path), (Text.ofString "length", .ofNat length)]
  | .searchComplete files found shown =>
    [(Text.ofString "files", .ofNat files), (Text.ofString "matches", .ofNat found),
      (Text.ofString "shown", .ofNat shown)]

def entry (event : Event) : LogEntry := ⟨Level.debug.name, event.message, .object event.details⟩

end Event
end HtmlFragments
