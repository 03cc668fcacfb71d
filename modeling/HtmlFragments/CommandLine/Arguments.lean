import HtmlFragments.CommandLine.Suggestion
import HtmlFragments.Inputs.Loading

/-! # Arguments

Options may stand anywhere before `--`. The first operand is the query and the others are files;
with no files standard input is searched. A request for help anywhere comes before all else. -/
set_option autoImplicit false

namespace HtmlFragments

structure SearchRequest where
  query : Text
  inputs : Inputs
  maxResults : Option Binary64
  verbose : Bool
deriving DecidableEq, Repr

inductive Request where
  | help
  | search (request : SearchRequest)
deriving DecidableEq, Repr

inductive ArgumentError where
  | countMissing
  | countInvalid (value : Text)
  | unknownOption (option : Text)
  | queryMissing
deriving DecidableEq, Repr

namespace Arguments

def helpFlags : List Text := ["-h", "--help"].map Text.ofString

def verboseFlag : Text := Text.ofString "--verbose"

def maxResultsFlag : Text := Text.ofString "--max-results"

def endOfOptions : Text := Text.ofString "--"

def longOptions : List Text := ["help", "max-results", "verbose"].map Text.ofString

end Arguments

namespace ArgumentError

def suggestion (option : Text) : Text :=
  match option with
  | 0x2D :: 0x2D :: word => Suggestion.question word Arguments.longOptions
  | _ => []

def message : ArgumentError → Text
  | .countMissing => Text.ofString "error: option '--max-results <n>' argument missing"
  | .countInvalid value =>
    Text.ofString "error: option '--max-results <n>' argument '" ++ value ++
      Text.ofString "' is invalid. Expected a non-negative integer."
  | .unknownOption option =>
    Text.ofString "error: unknown option '" ++ option ++ Text.ofString "'" ++ suggestion option
  | .queryMissing => Text.ofString "error: missing required argument 'query'"

end ArgumentError

namespace Arguments

/-- What an argument is when nothing before it takes it as a value. -/
inductive Kind where
  | terminator
  | verbose
  | maxResults
  | maxResultsWith (value : Text)
  | unknownOption
  | operand
deriving DecidableEq, Repr

def startsLikeOption (argument : Text) : Bool :=
  match argument with
  | 0x2D :: _ :: _ => true
  | _ => false

def Kind.ofText (argument : Text) : Kind :=
  if argument = endOfOptions then .terminator
  else if argument = verboseFlag then .verbose
  else if argument = maxResultsFlag then .maxResults
  else if (maxResultsFlag ++ [0x3D]).isPrefixOf argument then
    .maxResultsWith (argument.drop (maxResultsFlag.length + 1))
  else if startsLikeOption argument then .unknownOption
  else .operand

theorem Kind.ofText_ne_terminator {argument : Text} (other : argument ≠ endOfOptions) :
    ofText argument ≠ .terminator := by
  rw [ofText, if_neg other]
  repeat' split
  all_goals exact Kind.noConfusion

theorem Kind.ofText_ne_maxResults {argument : Text} (other : argument ≠ maxResultsFlag) :
    ofText argument ≠ .maxResults := by
  rw [ofText, if_neg other]
  repeat' split
  all_goals exact Kind.noConfusion

def readCount (value : Text) : Except ArgumentError Binary64 :=
  if value.isEmpty || !value.all CodeUnit.isDigit then .error (.countInvalid value)
  else .ok (Binary64.ofNat (Text.numberOfDigits 10 value))

/-- The arguments sorted by kind, each list in the order given. -/
structure Scan where
  operands : List Text := []
  unknownOptions : List Text := []
  maxResults : Option Binary64 := none
  verbose : Bool := false
deriving DecidableEq, Repr

namespace Scan

def addOperand (operand : Text) (scan : Scan) : Scan :=
  { scan with operands := operand :: scan.operands }

def addUnknownOption (option : Text) (scan : Scan) : Scan :=
  { scan with unknownOptions := option :: scan.unknownOptions }

def addVerbose (scan : Scan) : Scan := { scan with verbose := true }

def addCount (count : Binary64) (scan : Scan) : Scan :=
  { scan with maxResults := some (scan.maxResults.getD count) }

/-- Sorts the arguments from left to right. A count that is missing or invalid ends the scan. -/
def ofArguments : List Text → Except ArgumentError Scan
  | [] => .ok {}
  | argument :: rest =>
    match Kind.ofText argument with
    | .terminator => .ok { operands := rest }
    | .verbose => addVerbose <$> ofArguments rest
    | .maxResults =>
      match rest with
      | [] => .error .countMissing
      | value :: others => do
        let count ← readCount value
        addCount count <$> ofArguments others
    | .maxResultsWith value => do
      let count ← readCount value
      addCount count <$> ofArguments rest
    | .unknownOption => addUnknownOption argument <$> ofArguments rest
    | .operand => addOperand argument <$> ofArguments rest

/-! Each kind of argument adds its own to the scan of what follows. -/

variable {argument : Text} (rest : List Text)

theorem ofArguments_verbose (kind : Kind.ofText argument = .verbose) :
    ofArguments (argument :: rest) = addVerbose <$> ofArguments rest := by
  rw [ofArguments.eq_def]
  simp only [kind]

theorem ofArguments_maxResults (value : Text) (kind : Kind.ofText argument = .maxResults) :
    ofArguments (argument :: value :: rest) =
      readCount value >>= fun count => addCount count <$> ofArguments rest := by
  rw [ofArguments.eq_def]
  simp only [kind]

theorem ofArguments_maxResultsWith {value : Text}
    (kind : Kind.ofText argument = .maxResultsWith value) :
    ofArguments (argument :: rest) =
      readCount value >>= fun count => addCount count <$> ofArguments rest := by
  rw [ofArguments.eq_def]
  simp only [kind]

theorem ofArguments_unknownOption (kind : Kind.ofText argument = .unknownOption) :
    ofArguments (argument :: rest) = addUnknownOption argument <$> ofArguments rest := by
  rw [ofArguments.eq_def]
  simp only [kind]

theorem ofArguments_operand (kind : Kind.ofText argument = .operand) :
    ofArguments (argument :: rest) = addOperand argument <$> ofArguments rest := by
  rw [ofArguments.eq_def]
  simp only [kind]

/-- An unknown option is reported before a missing query. -/
def request (scan : Scan) : Except ArgumentError Request :=
  match scan.unknownOptions, scan.operands with
  | option :: _, _ => .error (.unknownOption option)
  | [], [] => .error .queryMissing
  | [], query :: paths =>
    .ok (.search {
      query := query
      inputs := if paths.isEmpty then .standardInput else .files paths
      maxResults := scan.maxResults
      verbose := scan.verbose })

theorem request_ne_help (scan : Scan) : scan.request ≠ .ok .help := by
  intro help
  rw [request] at help
  split at help
  · cases help
  · cases help
  · cases help

end Scan

def asksForHelp (arguments : List Text) : Bool := arguments.any helpFlags.contains

def parse (arguments : List Text) : Except ArgumentError Request :=
  if asksForHelp arguments then .ok .help
  else Scan.ofArguments arguments >>= Scan.request

theorem asksForHelp_iff {arguments : List Text} :
    asksForHelp arguments = true ↔
      Text.ofString "-h" ∈ arguments ∨ Text.ofString "--help" ∈ arguments := by
  simp [asksForHelp, helpFlags, and_or_left, exists_or]

theorem parse_eq_help_iff {arguments : List Text} :
    parse arguments = .ok .help ↔ asksForHelp arguments = true := by
  rw [parse]
  split
  case isTrue asks => exact ⟨fun _ => asks, fun _ => rfl⟩
  case isFalse asks =>
    constructor
    · intro help
      cases scanned : Scan.ofArguments arguments with
      | error error => rw [scanned] at help; cases help
      | ok scan => rw [scanned] at help; exact absurd help scan.request_ne_help
    · intro askedFor
      exact absurd askedFor asks

end Arguments

/-! ## Usage -/

def usageLines : List String :=
  ["",
    "Print the fragments of HTML documents that match a selector query.",
    "",
    "Arguments:",
    "  query              selector query, e.g. \"div > h1.title\"",
    "  files              HTML files to search (standard input when omitted)",
    "",
    "Options:",
    "  --max-results <n>  print at most n matches across all files",
    "  --verbose          log diagnostics to stderr",
    "  -h, --help         display this usage message",
    ""]

def usage (program : Text) : Text :=
  Text.ofString "Usage: " ++ program ++ Text.ofString " query [files...]\n" ++
    Text.join [0x0A] (usageLines.map Text.ofString)

end HtmlFragments
