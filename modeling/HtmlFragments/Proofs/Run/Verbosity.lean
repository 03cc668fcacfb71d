import HtmlFragments.Proofs.Text.Span
import HtmlFragments.Run

/-! # Diagnostics and what a run does

How much a run logs is decided by its flag for verbosity and by the environment. The flag goes
through the same scan as all other arguments, and the level of the log goes along with the run. Main
result: with the flag added any number of times wherever the scan takes it for an option, and in any
environment, a run does all that it does without it, apart from its log lines. -/
set_option autoImplicit false

namespace HtmlFragments

namespace Arguments

/-- Arguments with the flag for verbosity put in at any places, but neither right after an option
for a count, where it would be the value, nor behind the end of the options. -/
inductive MoreVerbose : List Text → List Text → Prop where
  | nothing : MoreVerbose [] []
  | inserted {arguments more : List Text} :
      MoreVerbose arguments more → MoreVerbose arguments (verboseFlag :: more)
  | terminator (rest : List Text) : MoreVerbose (endOfOptions :: rest) (endOfOptions :: rest)
  | count (value : Text) {others more : List Text} : MoreVerbose others more →
      MoreVerbose (maxResultsFlag :: value :: others) (maxResultsFlag :: value :: more)
  | countMissing : MoreVerbose [maxResultsFlag] [maxResultsFlag]
  | argument {argument : Text} {rest more : List Text} :
      argument ≠ endOfOptions → argument ≠ maxResultsFlag → MoreVerbose rest more →
      MoreVerbose (argument :: rest) (argument :: more)

theorem MoreVerbose.mem_iff {arguments more : List Text} (verbose : MoreVerbose arguments more)
    {flag : Text} (other : flag ≠ verboseFlag) : flag ∈ more ↔ flag ∈ arguments := by
  induction verbose with
  | nothing => rfl
  | inserted _ ih => rw [List.mem_cons, ih, or_iff_right other]
  | terminator rest => rfl
  | count value _ ih => rw [List.mem_cons, List.mem_cons, List.mem_cons, List.mem_cons, ih]
  | countMissing => rfl
  | argument _ _ _ ih => rw [List.mem_cons, List.mem_cons, ih]

/-! ## The scan -/

def Scan.quiet (scan : Scan) : Scan := { scan with verbose := false }

def Scan.KeepsQuiet (step : Scan → Scan) : Prop :=
  ∀ scan : Scan, (step scan).quiet = step scan.quiet

section

variable {further other : Except ArgumentError Scan}

theorem Scan.KeepsQuiet.map {step : Scan → Scan} (keeps : KeepsQuiet step)
    (same : quiet <$> further = quiet <$> other) :
    quiet <$> step <$> further = quiet <$> step <$> other := by
  rcases cases_of_map_eq same with ⟨error, rfl, rfl⟩ | ⟨scan, otherScan, rfl, rfl, quiet⟩
  · rfl
  · have sameStep : (step scan).quiet = (step otherScan).quiet := by
      rw [keeps, keeps, quiet]
    exact congrArg Except.ok sameStep

theorem Scan.quiet_addVerbose : quiet <$> addVerbose <$> further = quiet <$> further := by
  cases further <;> rfl

theorem Scan.quiet_count (value : Text) (same : quiet <$> further = quiet <$> other) :
    quiet <$> (readCount value >>= fun count => addCount count <$> further) =
      quiet <$> (readCount value >>= fun count => addCount count <$> other) := by
  cases readCount value with
  | error error => rfl
  | ok count =>
    have keeps : KeepsQuiet (addCount count) := fun _ => rfl
    exact keeps.map same

end

/-- The same argument in front of scans that differ in verbosity alone. -/
theorem ofArguments_cons_quiet {argument : Text} {rest more : List Text}
    (notTerminator : argument ≠ endOfOptions) (notCount : argument ≠ maxResultsFlag)
    (same : Scan.quiet <$> Scan.ofArguments more = Scan.quiet <$> Scan.ofArguments rest) :
    Scan.quiet <$> Scan.ofArguments (argument :: more) =
      Scan.quiet <$> Scan.ofArguments (argument :: rest) := by
  cases kind : Kind.ofText argument with
  | terminator => exact absurd kind (Kind.ofText_ne_terminator notTerminator)
  | maxResults => exact absurd kind (Kind.ofText_ne_maxResults notCount)
  | verbose =>
    rw [Scan.ofArguments_verbose _ kind, Scan.ofArguments_verbose _ kind, Scan.quiet_addVerbose,
      Scan.quiet_addVerbose]
    exact same
  | maxResultsWith value =>
    rw [Scan.ofArguments_maxResultsWith _ kind, Scan.ofArguments_maxResultsWith _ kind]
    exact Scan.quiet_count value same
  | unknownOption =>
    have keeps : Scan.KeepsQuiet (Scan.addUnknownOption argument) := fun _ => rfl
    rw [Scan.ofArguments_unknownOption _ kind, Scan.ofArguments_unknownOption _ kind]
    exact keeps.map same
  | operand =>
    have keeps : Scan.KeepsQuiet (Scan.addOperand argument) := fun _ => rfl
    rw [Scan.ofArguments_operand _ kind, Scan.ofArguments_operand _ kind]
    exact keeps.map same

theorem MoreVerbose.ofArguments_quiet {arguments more : List Text}
    (verbose : MoreVerbose arguments more) :
    Scan.quiet <$> Scan.ofArguments more = Scan.quiet <$> Scan.ofArguments arguments := by
  induction verbose with
  | nothing => rfl
  | inserted _ ih => rw [Scan.ofArguments_verbose _ (by decide), Scan.quiet_addVerbose, ih]
  | terminator rest => rfl
  | count value _ ih =>
    rw [Scan.ofArguments_maxResults _ value (by decide),
      Scan.ofArguments_maxResults _ value (by decide)]
    exact Scan.quiet_count value ih
  | countMissing => rfl
  | argument notTerminator notCount _ ih => exact ofArguments_cons_quiet notTerminator notCount ih

/-! ## The request -/

end Arguments

def Request.quiet : Request → Request
  | .help => .help
  | .search request => .search { request with verbose := false }

namespace Arguments

theorem Scan.request_quiet (scan : Scan) :
    Request.quiet <$> scan.request = scan.quiet.request := by
  unfold request
  show Except.map _ _ = _
  simp only [quiet]
  split <;> rfl

theorem MoreVerbose.parse_quiet {arguments more : List Text}
    (verbose : MoreVerbose arguments more) :
    Request.quiet <$> parse more = Request.quiet <$> parse arguments := by
  have sameHelp : asksForHelp more = asksForHelp arguments := by
    rw [Bool.eq_iff_iff, asksForHelp_iff, asksForHelp_iff, verbose.mem_iff (by decide),
      verbose.mem_iff (by decide)]
  have requested : ∀ scanned : Except ArgumentError Scan,
      Request.quiet <$> (scanned >>= Scan.request) = (Scan.quiet <$> scanned) >>= Scan.request := by
    intro scanned
    cases scanned with
    | error error => rfl
    | ok scan => exact scan.request_quiet
  rw [parse, parse, sameHelp]
  split
  · rfl
  · rw [requested, requested, verbose.ofArguments_quiet]

end Arguments

/-! ## The run -/

/-- All that a run does apart from the lines of its log. -/
def Outcome.unlogged (outcome : Outcome) : Outcome := { outcome with threshold := none }

namespace Run

/-- What a run does for a request, whatever the request says of verbosity. -/
theorem search_unlogged (surroundings : Surroundings) (environment : List (Text × Text))
    {request other : SearchRequest}
    (same : { request with verbose := false } = { other with verbose := false }) :
    Outcome.unlogged <$> search surroundings request =
      Outcome.unlogged <$> search { surroundings with environment := environment } other := by
  obtain ⟨query, inputs, maxResults, verbose⟩ := request
  obtain ⟨otherQuery, otherInputs, otherMaxResults, otherVerbose⟩ := other
  cases same
  simp only [search]
  cases Query.parse query with
  | error error => rfl
  | ok query =>
    simp only [searchInputs]
    cases Loading.loadDocuments surroundings.storage inputs with
    | error fault => rfl
    | ok loading =>
      obtain ⟨outcome, calls, events⟩ := loading
      cases outcome <;> rfl

theorem run_unlogged (program : Text) (surroundings : Surroundings)
    (environment : List (Text × Text)) {arguments more : List Text}
    (same : Request.quiet <$> Arguments.parse more = Request.quiet <$> Arguments.parse arguments) :
    Outcome.unlogged <$> run program more surroundings =
      Outcome.unlogged <$>
        run program arguments { surroundings with environment := environment } := by
  unfold run
  rcases cases_of_map_eq same with ⟨error, parsed, otherParsed⟩ |
    ⟨request, other, parsed, otherParsed, quiet⟩
  · rw [parsed, otherParsed]
    rfl
  · rw [parsed, otherParsed]
    cases request with
    | help =>
      cases other with
      | help => rfl
      | search other => cases quiet
    | search request =>
      cases other with
      | help => cases quiet
      | search other => exact search_unlogged surroundings environment (Request.search.inj quiet)

/-- Main result: neither more flags for verbosity nor the environment change anything that a run
does apart from its log lines, also where the run meets a fault. It asks for the same search. -/
theorem run_moreVerbose (program : Text) (surroundings : Surroundings) {arguments more : List Text}
    (verbose : Arguments.MoreVerbose arguments more) :
    Outcome.unlogged <$> run program more surroundings =
        Outcome.unlogged <$> run program arguments { surroundings with environment := [] } ∧
      Request.quiet <$> Arguments.parse more = Request.quiet <$> Arguments.parse arguments :=
  ⟨run_unlogged program surroundings [] verbose.parse_quiet, verbose.parse_quiet⟩

/-- A flag before an option for a count and one after its value, in an environment that asks for
every line. -/
theorem run_moreVerbose_counted :
    let arguments := ["--max-results", "1", "p"].map Text.ofString
    let more := ["--verbose", "--max-results", "1", "--verbose", "p"].map Text.ofString
    let surroundings : Surroundings := {
      storage := .ofFiles [] (Text.ofString "<p></p>")
      environment := [(Threshold.variableName, Text.ofString "silly")]
      colouredOutput := false
      colouredErrors := false }
    Arguments.MoreVerbose arguments more ∧
      Outcome.output <$> run (Text.ofString "search") more surroundings =
        .ok (Text.ofString "stdin\n<p></p>\n\n") ∧
      Arguments.parse more =
        .ok (.search ⟨Text.ofString "p", .standardInput, some (.ofNat 1), true⟩) := by
  intro arguments more surroundings
  have verbose : Arguments.MoreVerbose arguments more :=
    .inserted (.count _ (.inserted (.argument (by decide) (by decide) .nothing)))
  have unlogged : ∀ ran : Except Fault Outcome,
      Outcome.output <$> ran = Outcome.output <$> Outcome.unlogged <$> ran := by
    intro ran
    cases ran <;> rfl
  refine ⟨verbose, ?_, by decide +kernel⟩
  obtain ⟨same, _⟩ := run_moreVerbose (Text.ofString "search") surroundings verbose
  rw [unlogged, same, ← unlogged]
  decide +kernel

end Run
end HtmlFragments
