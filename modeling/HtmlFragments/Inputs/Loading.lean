import HtmlFragments.Diagnostics.Log
import HtmlFragments.Document.Reading

/-! # Loading inputs

A storage answers three questions. A question that cannot be answered at all is a fault, which is
not the same as the answer that there is no such file. Inputs are read in order up to the first path
that is no file, and only then parsed in order up to the first one that is malformed. Nothing after
the first failure is asked for, and no partial list is returned. -/
set_option autoImplicit false

namespace HtmlFragments

/-! ## Storages -/

inductive Fault where
  | unreadable (path : Text)
  | nameTooLong
  | nulInPath
deriving DecidableEq, Repr

structure Storage where
  isFile : Text → Except Fault Bool
  contents : Text → Except Fault Text
  standardInput : Text

inductive Call where
  | isFile (path : Text)
  | contents (path : Text)
  | standardInput
deriving DecidableEq, Repr

namespace Fault

def message : Fault → Text
  | .unreadable path => Text.ofString "cannot read " ++ path
  | .nameTooLong => Text.ofString "file name too long"
  | .nulInPath => Text.ofString "path contains a null unit"

end Fault

/-- Files held in memory. A path without contents is there but cannot be read. -/
def Storage.ofFiles (files : List (Text × Option Text)) (standardInput : Text) : Storage where
  isFile path := .ok (files.lookup path).isSome
  contents path :=
    match files.lookup path with
    | some (some contents) => .ok contents
    | _ => .error (.unreadable path)
  standardInput := standardInput

/-! ## Loading -/

inductive Inputs where
  | standardInput
  | files (paths : List Text)
deriving DecidableEq, Repr

structure NamedText where
  path : Text
  content : Text
deriving DecidableEq, Repr

structure NamedDocument where
  path : Text
  document : Document
deriving DecidableEq, Repr

inductive LoadError where
  | fileNotFound (path : Text)
  | malformed (path : Text) (cause : ParseError)
deriving DecidableEq, Repr

def LoadError.message : LoadError → Text
  | .fileNotFound path => Text.ofString "File not found: " ++ path
  | .malformed path cause =>
    Text.ofString "Failed to parse " ++ path ++ Text.ofString ": " ++ cause.message

/-- The outcome of loading, with what was asked and reported on the way. -/
structure Loading (Value : Type) where
  outcome : Except LoadError Value
  calls : List Call
  events : List Event

namespace Loading

def standardInputPath : Text := Text.ofString "stdin"

def afterFile (path content : Text) (rest : Loading (List NamedText)) :
    Loading (List NamedText) where
  outcome := rest.outcome.map (⟨path, content⟩ :: ·)
  calls := .isFile path :: .contents path :: rest.calls
  events := .fileRead path content.length :: rest.events

def readFiles (storage : Storage) : List Text → Except Fault (Loading (List NamedText))
  | [] => .ok ⟨.ok [], [], []⟩
  | path :: rest => do
    if ← storage.isFile path then
      let content ← storage.contents path
      return afterFile path content (← readFiles storage rest)
    else return ⟨.error (.fileNotFound path), [.isFile path], []⟩

def readInputs (storage : Storage) : Inputs → Except Fault (Loading (List NamedText))
  | .standardInput =>
    .ok ⟨.ok [⟨standardInputPath, storage.standardInput⟩], [.standardInput],
      [.readingStandardInput]⟩
  | .files paths => readFiles storage paths

def parseAll : List NamedText → Except LoadError (List NamedDocument)
  | [] => .ok []
  | ⟨path, content⟩ :: rest =>
    match Document.parse content with
    | .error cause => .error (.malformed path cause)
    | .ok document => (parseAll rest).map (⟨path, document⟩ :: ·)

def loadDocuments (storage : Storage) (inputs : Inputs) :
    Except Fault (Loading (List NamedDocument)) := do
  let texts ← readInputs storage inputs
  return { texts with outcome := texts.outcome >>= parseAll }

end Loading
end HtmlFragments
