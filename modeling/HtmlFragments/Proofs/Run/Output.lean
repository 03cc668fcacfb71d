import Mathlib.Data.List.Infix
import HtmlFragments.Proofs.CommandLine.Counts
import HtmlFragments.Proofs.Inputs.FirstFailure
import HtmlFragments.Proofs.Numeric.WholeNumbers
import HtmlFragments.Proofs.Run.Stages

/-! # The output of a run

A run whose inputs are all good prints the matches of one input after the other and stops at its
limit, which counts over all inputs together. The limit passes through a binary64 value, which may
round it, but never to less than `2 ^ 53`. Main result: what is printed and what is reported last;
and that output without a limit is put together from the outputs for the single inputs, and output
with a limit begins every output with a greater one. -/
set_option autoImplicit false

namespace HtmlFragments

/-! ## Limits -/

namespace Limit

variable {Item : Type} {items : List Item}

/-- The rounding of a limit cannot be seen in a row of fewer than `2 ^ 53` items. -/
theorem apply_ofNat (number : Nat) (few : items.length < 2 ^ 53) :
    (ofCount (some (Binary64.ofNat number))).apply items = items.take number := by
  have keep : ∀ count, 2 ^ 53 ≤ count → items.take count = items := fun count large =>
    List.take_of_length_le (Nat.le_of_lt (Nat.lt_of_lt_of_le few large))
  rw [ofCount, Option.bind_some]
  by_cases small : number < 2 ^ 53
  · rw [Binary64.floor?_ofNat small]
    rfl
  have large : 2 ^ 53 ≤ number := Nat.le_of_not_lt small
  rw [keep number large]
  cases floor : (Binary64.ofNat number).floor? with
  | none => rfl
  | some whole => exact keep whole (Binary64.le_floor?_ofNat large floor)

theorem apply_ofInt (number : Nat) (few : items.length < 2 ^ 53) :
    (ofInt number).apply items = (ofCount (some (Binary64.ofNat number))).apply items :=
  (apply_ofNat number few).symm

def shown (limit : Option Text) (found : Nat) : Nat :=
  match limit with
  | none => found
  | some digits => min digits.decimal found

theorem apply_digits (limit : Option Text) (few : items.length < 2 ^ 53) :
    (ofCount (limit.map fun digits => Binary64.ofNat digits.decimal)).apply items =
      items.take (shown limit items.length) := by
  cases limit with
  | none => exact (List.take_length).symm
  | some digits => exact (apply_ofNat digits.decimal few).trans List.take_eq_take_min

/-- One limit is at most another one, where no limit is the greatest. -/
def AtMost (limit greater : Option Text) : Prop :=
  ∀ digits, greater = some digits → ∃ fewer, limit = some fewer ∧ fewer.decimal ≤ digits.decimal

theorem AtMost.shown_le {limit greater : Option Text} (atMost : AtMost limit greater)
    (found : Nat) : shown limit found ≤ shown greater found := by
  cases greater with
  | none =>
    cases limit with
    | none => exact Nat.le_refl _
    | some digits => exact Nat.min_le_right _ _
  | some digits =>
    obtain ⟨fewer, rfl, le⟩ := atMost digits rfl
    simp only [shown]
    omega

end Limit

/-! ## Runs over good inputs -/

def Inputs.count : Inputs → Nat
  | .standardInput => 1
  | .files paths => paths.length

theorem Loading.Supplies.length {storage : Storage} {inputs : Inputs}
    {documents : List NamedDocument} (supplies : Supplies storage inputs documents) :
    documents.length = inputs.count := by
  cases inputs with
  | standardInput =>
    obtain ⟨document, _, rfl⟩ := supplies
    rfl
  | files paths =>
    obtain ⟨rfl, _⟩ := supplies
    exact (List.length_map _).symm

/-- A run has printed the first `shown` of the matches found in `files` inputs, and nothing on the
error stream, and has reported so at its end. -/
structure Outcome.Prints (outcome : Outcome) (coloured : Bool) (files : Nat) (found : List Match)
    (shown : Nat) : Prop where
  exitCode : outcome.exitCode = 0
  output : outcome.output = (found.take shown).flatMap (Match.printed coloured)
  errors : outcome.errors = []
  reported : outcome.events.getLast? = some (.searchComplete files found.length shown)

namespace Run

open Arguments (lastCount? maxResults_of_parse)
open Loading (Supplies loadDocuments_of_supplies)

variable {arguments : List Text} {surroundings : Surroundings} {request : SearchRequest}
  {query : Query} {documents : List NamedDocument}

theorem finished_prints (parsed : Arguments.parse arguments = .ok (.search request))
    (events : List Event) (calls : List Call) (threshold : Threshold)
    (few : (query.searchAll documents).length < 2 ^ 53) :
    (finished surroundings request query documents events calls threshold).Prints
      surroundings.colouredOutput documents.length (query.searchAll documents)
      (Limit.shown (lastCount? arguments) (query.searchAll documents).length) := by
  have kept := Limit.apply_digits (lastCount? arguments) few
  rw [← maxResults_of_parse parsed] at kept
  have bounded : Limit.shown (lastCount? arguments) (query.searchAll documents).length ≤
      (query.searchAll documents).length := by
    unfold Limit.shown
    split
    · exact Nat.le_refl _
    · exact Nat.min_le_right _ _
  refine ⟨rfl, ?_, rfl, ?_⟩
  · rw [finished, kept]
  · rw [finished, kept, List.getLast?_concat, List.length_take, Nat.min_eq_left bounded]

theorem exists_prints (program : Text) (parsed : Arguments.parse arguments = .ok (.search request))
    (read : Query.parse request.query = .ok query)
    (supplies : Supplies surroundings.storage request.inputs documents)
    (few : (query.searchAll documents).length < 2 ^ 53) :
    ∃ outcome, run program arguments surroundings = .ok outcome ∧
      outcome.Prints surroundings.colouredOutput request.inputs.count (query.searchAll documents)
        (Limit.shown (lastCount? arguments) (query.searchAll documents).length) := by
  obtain ⟨loading, loaded, succeeds⟩ := loadDocuments_of_supplies supplies
  refine ⟨_, run_of_ends (.printed parsed read loaded succeeds), ?_⟩
  rw [← supplies.length]
  exact finished_prints parsed _ _ _ few

def outputOf (program : Text) (arguments : List Text) (surroundings : Surroundings) : Text :=
  (run program arguments surroundings).toOption.elim [] Outcome.output

theorem outputOf_eq {program : Text} {outcome : Outcome}
    (ran : run program arguments surroundings = .ok outcome) :
    outputOf program arguments surroundings = outcome.output := by
  rw [outputOf, ran]
  rfl

def AsksForOne (request : SearchRequest) (path : Text) (arguments : List Text) : Prop :=
  ∃ alone, Arguments.parse arguments = .ok (.search alone) ∧ alone.query = request.query ∧
    alone.inputs = .files [path] ∧ lastCount? arguments = none

/-- A run for one file prints the matches in it. -/
theorem exists_prints_one (program : Text) {named : NamedDocument}
    (asks : AsksForOne request named.path arguments)
    (read : Query.parse request.query = .ok query)
    (hasDocument : Loading.HasDocument surroundings.storage named)
    (few : (query.searchAll [named]).length < 2 ^ 53) :
    ∃ outcome, run program arguments surroundings = .ok outcome ∧ outcome.exitCode = 0 ∧
      outcome.output = (query.searchAll [named]).flatMap
        (Match.printed surroundings.colouredOutput) := by
  obtain ⟨alone, parsed, sameQuery, inputs, unlimited⟩ := asks
  have supplies : Supplies surroundings.storage alone.inputs [named] := by
    rw [inputs]
    exact ⟨rfl, List.forall_mem_singleton.mpr hasDocument⟩
  obtain ⟨outcome, ran, prints⟩ := exists_prints program parsed (sameQuery ▸ read) supplies few
  refine ⟨outcome, ran, prints.exitCode, ?_⟩
  rw [prints.output, unlimited, Limit.shown, List.take_length]

theorem searchAll_length_le {named : NamedDocument} (member : named ∈ documents) :
    (query.searchAll [named]).length ≤ (query.searchAll documents).length := by
  obtain ⟨before, after, rfl⟩ := List.append_of_mem member
  simp only [Query.searchAll, List.flatMap_append, List.flatMap_cons, List.length_append,
    List.flatMap_nil, List.length_nil]
  omega

/-- Without a limit the output is that of the single files, one after the other. -/
theorem output_of_single_runs (program : Text) {single : Text → List Text}
    (read : Query.parse request.query = .ok query)
    (hasDocuments : ∀ named ∈ documents, Loading.HasDocument surroundings.storage named)
    (asks : ∀ named ∈ documents, AsksForOne request named.path (single named.path))
    (few : (query.searchAll documents).length < 2 ^ 53) :
    (∀ named ∈ documents, ∃ other,
      run program (single named.path) surroundings = .ok other ∧ other.exitCode = 0) ∧
    (query.searchAll documents).flatMap (Match.printed surroundings.colouredOutput) =
      documents.flatMap fun named => outputOf program (single named.path) surroundings := by
  have alone := fun named member => exists_prints_one program (asks named member) read
    (hasDocuments named member) (Nat.lt_of_le_of_lt (searchAll_length_le member) few)
  constructor
  · intro named member
    obtain ⟨other, ran, exit, _⟩ := alone named member
    exact ⟨other, ran, exit⟩
  · rw [Query.searchAll, List.flatMap_assoc]
    refine List.flatMap_congr fun named member => ?_
    obtain ⟨other, ran, _, output⟩ := alone named member
    rw [outputOf_eq ran, output, Query.searchAll, List.flatMap_singleton]

/-- Main result. A search over inputs that are all there and all well formed succeeds, prints the
matches of the inputs one after the other up to the last limit that was given, and reports the
numbers of inputs, of matches and of shown matches at its end. Without a limit this is the output
for the single files in order, and it begins the output of the same search with a greater limit. -/
theorem run_prints_found (program : Text)
    (parsed : Arguments.parse arguments = .ok (.search request))
    (read : Query.parse request.query = .ok query)
    (supplies : Supplies surroundings.storage request.inputs documents)
    (few : (documents.flatMap fun named => query.search named.document).length < 2 ^ 53) :
    let found := documents.flatMap fun named =>
      (query.search named.document).map fun element => Match.mk named.path element
    ∃ outcome, run program arguments surroundings = .ok outcome ∧
      outcome.Prints surroundings.colouredOutput request.inputs.count found
        (Limit.shown (lastCount? arguments) found.length) ∧
      (∀ paths, request.inputs = .files paths → lastCount? arguments = none →
        ∀ single : Text → List Text, (∀ path ∈ paths, AsksForOne request path (single path)) →
          (∀ path ∈ paths, ∃ other,
            run program (single path) surroundings = .ok other ∧ other.exitCode = 0) ∧
          outcome.output = paths.flatMap fun path => outputOf program (single path) surroundings) ∧
      ∀ others otherRequest, Arguments.parse others = .ok (.search otherRequest) →
        otherRequest.query = request.query → otherRequest.inputs = request.inputs →
        Limit.AtMost (lastCount? arguments) (lastCount? others) →
        ∃ other, run program others surroundings = .ok other ∧ outcome.output <+: other.output := by
  intro found
  have fewFound : (query.searchAll documents).length < 2 ^ 53 := by
    simpa [Query.searchAll, List.length_flatMap] using few
  obtain ⟨outcome, ran, prints⟩ := exists_prints program parsed read supplies fewFound
  refine ⟨outcome, ran, prints, ?_, ?_⟩
  · intro paths inputs unlimited single asks
    rw [inputs] at supplies
    obtain ⟨rfl, hasDocuments⟩ := supplies
    obtain ⟨ranSingle, whole⟩ := output_of_single_runs program read hasDocuments
      (fun named member => asks named.path (List.mem_map_of_mem member)) fewFound
    refine ⟨List.forall_mem_map.mpr ranSingle, ?_⟩
    rw [prints.output, unlimited, Limit.shown, List.take_length, whole, List.flatMap_map]
  · intro others otherRequest otherParsed sameQuery sameInputs atMost
    obtain ⟨other, otherRan, otherPrints⟩ := exists_prints program otherParsed
      (sameQuery ▸ read) (sameInputs ▸ supplies) fewFound
    refine ⟨other, otherRan, ?_⟩
    rw [prints.output, otherPrints.output]
    exact (List.take_prefix_take_left (atMost.shown_le _)).flatMap _

/-- One file twice, with a first limit that does not hold and a last one beyond `2 ^ 53`. -/
theorem run_prints_found_twice :
    let path := Text.ofString "a"
    let arguments := ["--max-results=0", "p", "--max-results", "9007199254740993", "a", "a"].map
      Text.ofString
    let document : Document := ⟨[.element (Text.ofString "p") [] []]⟩
    let documents : List NamedDocument := [⟨path, document⟩, ⟨path, document⟩]
    let query : Query := .simple { tag := some (Text.ofString "p") }
    let surroundings : Surroundings := {
      storage := .ofFiles [(path, some (Text.ofString "<p></p>"))] []
      environment := []
      colouredOutput := false
      colouredErrors := false }
    (∃ request, Arguments.parse arguments = .ok (.search request) ∧
        Query.parse request.query = .ok query ∧
        Supplies surroundings.storage request.inputs documents) ∧
      (documents.flatMap fun named => query.search named.document).length = 2 ∧
      ∃ outcome, run (Text.ofString "search") arguments surroundings = .ok outcome ∧
        outcome.output = Text.ofString "a\n<p></p>\n\na\n<p></p>\n\n" ∧
        outcome.events.getLast? = some (.searchComplete 2 2 2) := by
  intro path arguments document documents query surroundings
  have parsed : Arguments.parse arguments = .ok (.search ⟨Text.ofString "p",
      .files [path, path], some (.ofNat 9007199254740993), false⟩) := by decide +kernel
  have read : Query.parse (Text.ofString "p") = .ok query := by decide +kernel
  have hasDocument : Loading.HasDocument surroundings.storage ⟨path, document⟩ :=
    ⟨Text.ofString "<p></p>", ⟨by decide, by decide⟩, by decide +kernel⟩
  have supplies : Supplies surroundings.storage (.files [path, path]) documents :=
    ⟨rfl, by simp [documents, hasDocument]⟩
  have count : (documents.flatMap fun named => query.search named.document).length = 2 := by
    decide +kernel
  obtain ⟨outcome, ran, prints, _⟩ := run_prints_found (Text.ofString "search") parsed read
    supplies (by rw [count]; decide)
  refine ⟨⟨_, parsed, read, supplies⟩, count, outcome, ran, ?_, ?_⟩
  · rw [prints.output]
    decide +kernel
  · rw [prints.reported]
    decide +kernel

end Run
end HtmlFragments
