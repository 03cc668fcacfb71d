import HtmlFragments.Proofs.Inputs.Loading
import HtmlFragments.Proofs.Text.Span
import HtmlFragments.Run

/-! # The stages of a run

Arguments are understood first, then the query is read, then the inputs are loaded, and the first
stage that fails decides how the run ends. Main result: a run over a storage that answers all its
questions ends with all of its output or with one message, and its storage is not asked anything
before the arguments and the query are found to be good. -/
set_option autoImplicit false

namespace HtmlFragments

/-- A run that failed has printed nothing but a painted message. -/
structure Outcome.Reports (outcome : Outcome) (surroundings : Surroundings) (message : Text) :
    Prop where
  exitCode : outcome.exitCode = 1
  output : outcome.output = []
  errors : outcome.errors = Colour.paint surroundings.colouredErrors .red message ++ [0x0A]

namespace Run

theorem failed_reports (surroundings : Surroundings) (message : Text) (events : List Event)
    (calls : List Call) (threshold : Option Threshold) :
    (failed surroundings message events calls threshold).Reports surroundings message :=
  ⟨rfl, rfl, rfl⟩

/-- What a run comes to, by the stage that decides it. -/
inductive Ends (program : Text) (arguments : List Text) (surroundings : Surroundings) :
    Outcome → Prop where
  | helped : Arguments.parse arguments = .ok .help →
      Ends program arguments surroundings ⟨0, usage program, [], [], [], none⟩
  | misused {error : ArgumentError} : Arguments.parse arguments = .error error →
      Ends program arguments surroundings
        (failed surroundings (argumentFailure program error) [] [] none)
  | misread {request : SearchRequest} {error : ParseError} :
      Arguments.parse arguments = .ok (.search request) →
      Query.parse request.query = .error error →
      Ends program arguments surroundings
        (failed surroundings (queryFailure request.query error) [] []
          (Threshold.choose request.verbose surroundings.environment))
  | stopped {request : SearchRequest} {query : Query} {loading : Loading (List NamedDocument)}
      {error : LoadError} :
      Arguments.parse arguments = .ok (.search request) →
      Query.parse request.query = .ok query →
      Loading.loadDocuments surroundings.storage request.inputs = .ok loading →
      loading.outcome = .error error →
      Ends program arguments surroundings
        (failed surroundings error.message (.queryParsed query.text :: loading.events)
          loading.calls (Threshold.choose request.verbose surroundings.environment))
  | printed {request : SearchRequest} {query : Query} {loading : Loading (List NamedDocument)}
      {documents : List NamedDocument} :
      Arguments.parse arguments = .ok (.search request) →
      Query.parse request.query = .ok query →
      Loading.loadDocuments surroundings.storage request.inputs = .ok loading →
      loading.outcome = .ok documents →
      Ends program arguments surroundings
        (finished surroundings request query documents
          (.queryParsed query.text :: loading.events) loading.calls
          (Threshold.choose request.verbose surroundings.environment))

variable {program : Text} {arguments : List Text} {surroundings : Surroundings}
  {outcome : Outcome}

theorem run_of_ends (ends : Ends program arguments surroundings outcome) :
    run program arguments surroundings = .ok outcome := by
  cases ends with
  | helped parsed => rw [run, parsed]
  | misused parsed => rw [run, parsed]
  | misread parsed read => simp only [run, parsed, search, read]
  | stopped parsed read loaded stops =>
    simp only [run, parsed, search, read, searchInputs, loaded]
    simp only [bind, Except.bind, stops, pure, Except.pure]
  | printed parsed read loaded succeeds =>
    simp only [run, parsed, search, read, searchInputs, loaded]
    simp only [bind, Except.bind, succeeds, pure, Except.pure]

theorem Ends.unique {other : Outcome} (ends : Ends program arguments surroundings outcome)
    (alsoEnds : Ends program arguments surroundings other) : outcome = other :=
  Except.ok.inj ((run_of_ends ends).symm.trans (run_of_ends alsoEnds))

theorem exists_ends (program : Text) (arguments : List Text)
    (reliable : surroundings.storage.Reliable) :
    ∃ outcome, Ends program arguments surroundings outcome := by
  cases parsed : Arguments.parse arguments with
  | error error => exact ⟨_, .misused parsed⟩
  | ok asked =>
    cases asked with
    | help => exact ⟨_, .helped parsed⟩
    | search request =>
      cases read : Query.parse request.query with
      | error error => exact ⟨_, .misread parsed read⟩
      | ok query =>
        obtain ⟨loading, loaded⟩ := Loading.exists_loadDocuments reliable request.inputs
        cases loads : loading.outcome with
        | error error => exact ⟨_, .stopped parsed read loaded loads⟩
        | ok documents => exact ⟨_, .printed parsed read loaded loads⟩

/-- A run ends alike over any storage that answers its calls alike. -/
theorem Ends.congr (ends : Ends program arguments surroundings outcome) {other : Storage}
    (alike : ∀ call ∈ outcome.calls, call.AnsweredAlike surroundings.storage other) :
    Ends program arguments { surroundings with storage := other } outcome := by
  cases ends with
  | helped parsed => exact .helped parsed
  | misused parsed => exact .misused parsed
  | misread parsed read => exact .misread parsed read
  | stopped parsed read loaded stops =>
    exact .stopped parsed read (Loading.loadDocuments_congr loaded alike) stops
  | printed parsed read loaded succeeds =>
    exact .printed parsed read (Loading.loadDocuments_congr loaded alike) succeeds

theorem Ends.concerns (ends : Ends program arguments surroundings outcome) {call : Call}
    (member : call ∈ outcome.calls) :
    ∃ request, Arguments.parse arguments = .ok (.search request) ∧ call.Concerns request.inputs := by
  cases ends with
  | helped _ => cases member
  | misused _ => cases member
  | misread _ _ => cases member
  | stopped parsed _ loaded _ =>
    exact ⟨_, parsed, Loading.concerns_of_loadDocuments loaded call member⟩
  | printed parsed _ loaded _ =>
    exact ⟨_, parsed, Loading.concerns_of_loadDocuments loaded call member⟩

theorem Ends.quiet_or_reports (ends : Ends program arguments surroundings outcome) :
    (outcome.exitCode = 0 ∧ outcome.errors = []) ∨
      ∃ message, outcome.Reports surroundings message := by
  cases ends with
  | helped _ => exact .inl ⟨rfl, rfl⟩
  | misused _ => exact .inr ⟨_, failed_reports ..⟩
  | misread _ _ => exact .inr ⟨_, failed_reports ..⟩
  | stopped _ _ _ _ => exact .inr ⟨_, failed_reports ..⟩
  | printed _ _ _ _ => exact .inl ⟨rfl, rfl⟩

/-- Once the query is read, the loading decides. -/
theorem Ends.decided_by_loading (ends : Ends program arguments surroundings outcome)
    {request : SearchRequest} {query : Query} {loading : Loading (List NamedDocument)}
    (parsed : Arguments.parse arguments = .ok (.search request))
    (read : Query.parse request.query = .ok query)
    (loaded : Loading.loadDocuments surroundings.storage request.inputs = .ok loading) :
    outcome.calls = loading.calls ∧
      (outcome.exitCode = 0 ↔ ∃ documents, loading.outcome = .ok documents) ∧
      ∀ error, loading.outcome = .error error → outcome.Reports surroundings error.message := by
  cases loads : loading.outcome with
  | error error =>
    obtain rfl := ends.unique (.stopped parsed read loaded loads)
    refine ⟨rfl, ⟨?_, ?_⟩, ?_⟩
    · intro zero
      cases zero
    · rintro ⟨documents, succeeds⟩
      cases succeeds
    · intro reported same
      cases same
      exact failed_reports ..
  | ok documents =>
    obtain rfl := ends.unique (.printed parsed read loaded loads)
    refine ⟨rfl, ⟨fun _ => ⟨documents, rfl⟩, fun _ => rfl⟩, ?_⟩
    intro error stops
    cases stops

/-- Main result. A run ends with exit code 0 and no message, or with exit code 1 and one message
instead of all output. A request for help comes first, then what is wrong with the arguments, then
what is wrong with the query, all without any call; the rest is decided by the loading. What a run
comes to depends on the answers to its calls alone. -/
theorem run_all_or_nothing (program : Text) (arguments : List Text) (surroundings : Surroundings)
    (reliable : surroundings.storage.Reliable) :
    ∃ outcome, run program arguments surroundings = .ok outcome ∧
      (outcome.exitCode = 0 ∨ outcome.exitCode = 1) ∧
      (outcome.exitCode = 1 → ∃ message, outcome.Reports surroundings message) ∧
      (outcome.exitCode = 0 → outcome.errors = []) ∧
      (∀ other, (∀ call ∈ outcome.calls, call.AnsweredAlike surroundings.storage other) →
        run program arguments { surroundings with storage := other } = .ok outcome) ∧
      (Text.ofString "-h" ∈ arguments ∨ Text.ofString "--help" ∈ arguments →
        outcome.exitCode = 0 ∧ outcome.output = usage program ∧ outcome.calls = []) ∧
      (Text.ofString "-h" ∉ arguments → Text.ofString "--help" ∉ arguments →
        match Arguments.parse arguments with
        | .error error =>
          outcome.Reports surroundings (argumentFailure program error) ∧ outcome.calls = []
        | .ok .help => False
        | .ok (.search request) =>
          match Query.parse request.query with
          | .error error =>
            outcome.Reports surroundings (queryFailure request.query error) ∧ outcome.calls = []
          | .ok _ =>
            ∃ loading, Loading.loadDocuments surroundings.storage request.inputs = .ok loading ∧
              outcome.calls = loading.calls ∧
              (outcome.exitCode = 0 ↔ ∃ documents, loading.outcome = .ok documents) ∧
              ∀ error, loading.outcome = .error error →
                outcome.Reports surroundings error.message) := by
  obtain ⟨outcome, ends⟩ := exists_ends program arguments reliable
  refine ⟨outcome, run_of_ends ends, ?_, ?_, ?_, fun _ alike => run_of_ends (ends.congr alike),
    ?_, ?_⟩
  · rcases ends.quiet_or_reports with ⟨exit, _⟩ | ⟨_, reports⟩
    · exact .inl exit
    · exact .inr reports.exitCode
  · intro exit
    rcases ends.quiet_or_reports with ⟨zero, _⟩ | reports
    · rw [zero] at exit
      cases exit
    · exact reports
  · intro exit
    rcases ends.quiet_or_reports with ⟨_, quiet⟩ | ⟨_, reports⟩
    · exact quiet
    · rw [reports.exitCode] at exit
      cases exit
  · intro flagged
    have asked := Arguments.parse_eq_help_iff.mpr (Arguments.asksForHelp_iff.mpr flagged)
    obtain rfl := ends.unique (.helped asked)
    exact ⟨rfl, rfl, rfl⟩
  · intro short long
    split
    case h_1 error parsed =>
      obtain rfl := ends.unique (.misused parsed)
      exact ⟨failed_reports .., rfl⟩
    case h_2 parsed =>
      have flagged := Arguments.asksForHelp_iff.mp (Arguments.parse_eq_help_iff.mp parsed)
      exact flagged.elim short long
    case h_3 request parsed =>
      split
      case h_1 error read =>
        obtain rfl := ends.unique (.misread parsed read)
        exact ⟨failed_reports .., rfl⟩
      case h_2 query read =>
        obtain ⟨loading, loaded⟩ := Loading.exists_loadDocuments reliable request.inputs
        exact ⟨loading, loaded, ends.decided_by_loading parsed read loaded⟩

/-- Of a malformed file and a missing one after it, the missing one is reported. -/
theorem run_all_or_nothing_missing :
    let malformed := Text.ofString "malformed.html"
    let missing := Text.ofString "missing.html"
    let surroundings : Surroundings := {
      storage := .ofFiles [(malformed, some (Text.ofString "<p>"))] []
      environment := []
      colouredOutput := false
      colouredErrors := true }
    surroundings.storage.Reliable ∧
      ∃ outcome,
        run (Text.ofString "search") [Text.ofString "p", malformed, missing] surroundings =
          .ok outcome ∧
        outcome.Reports surroundings (Text.ofString "File not found: missing.html") ∧
        outcome.calls = [.isFile malformed, .contents malformed, .isFile missing] := by
  intro malformed missing surroundings
  have reliable : surroundings.storage.Reliable := Storage.reliable_ofFiles [] (by decide)
  obtain ⟨outcome, ran, _, _, _, _, _, decided⟩ :=
    run_all_or_nothing (Text.ofString "search") [Text.ofString "p", malformed, missing]
      surroundings reliable
  have parsed : Arguments.parse [Text.ofString "p", malformed, missing] =
      .ok (.search ⟨Text.ofString "p", .files [malformed, missing], none, false⟩) := by
    decide +kernel
  have read : Query.parse (Text.ofString "p") =
      .ok (.simple { tag := some (Text.ofString "p") }) := by decide +kernel
  have stopped := decided (by decide) (by decide)
  simp only [parsed, read] at stopped
  obtain ⟨loading, loaded, calls, _, reports⟩ := stopped
  cases loaded
  exact ⟨reliable, outcome, ran, reports (.fileNotFound missing) rfl, calls⟩

end Run
end HtmlFragments
