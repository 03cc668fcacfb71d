import HtmlFragments.CommandLine.Arguments
import HtmlFragments.Proofs.Numeric.WholeNumbers

/-! # The count among the arguments

An option for a count takes the argument after it as its value, whatever that looks like, or has its
value behind a `=`. Of several counts the last one holds. So the count of a search is the number
that the last of these values writes, rounded to a binary64 value. -/
set_option autoImplicit false

namespace HtmlFragments

def Text.decimal (digits : Text) : Nat :=
  Nat.ofDigits 10 (digits.reverse.map CodeUnit.digitValue)

theorem Text.numberOfDigits_ten (digits : Text) : numberOfDigits 10 digits = digits.decimal :=
  numberOfDigits_eq_ofDigits 10 digits

namespace Arguments

def counts : List Text → List Text
  | [] => []
  | argument :: rest =>
    match Kind.ofText argument with
    | .terminator => []
    | .maxResults =>
      match rest with
      | [] => []
      | value :: others => value :: counts others
    | .maxResultsWith value => value :: counts rest
    | .verbose | .unknownOption | .operand => counts rest

def lastCount? (arguments : List Text) : Option Text := (counts arguments).getLast?

theorem eq_of_readCount {value : Text} {count : Binary64} (reads : readCount value = .ok count) :
    count = Binary64.ofNat value.decimal := by
  unfold readCount at reads
  split at reads
  · cases reads
  · rw [Text.numberOfDigits_ten] at reads
    exact (Except.ok.inj reads).symm

/-- The scan of arguments that are in order, taken from left to right. -/
inductive Scans : List Text → Scan → Prop where
  | nothing : Scans [] {}
  | terminator {argument : Text} {rest : List Text} :
      Kind.ofText argument = .terminator → Scans (argument :: rest) { operands := rest }
  | verbose {argument : Text} {rest : List Text} {scan : Scan} :
      Kind.ofText argument = .verbose → Scans rest scan → Scans (argument :: rest) scan.addVerbose
  | maxResults {argument value : Text} {count : Binary64} {others : List Text} {scan : Scan} :
      Kind.ofText argument = .maxResults → readCount value = .ok count → Scans others scan →
      Scans (argument :: value :: others) (scan.addCount count)
  | maxResultsWith {argument value : Text} {count : Binary64} {rest : List Text} {scan : Scan} :
      Kind.ofText argument = .maxResultsWith value → readCount value = .ok count →
      Scans rest scan → Scans (argument :: rest) (scan.addCount count)
  | unknownOption {argument : Text} {rest : List Text} {scan : Scan} :
      Kind.ofText argument = .unknownOption → Scans rest scan →
      Scans (argument :: rest) (scan.addUnknownOption argument)
  | operand {argument : Text} {rest : List Text} {scan : Scan} :
      Kind.ofText argument = .operand → Scans rest scan →
      Scans (argument :: rest) (scan.addOperand argument)

theorem exists_of_map_ok {step : Scan → Scan} {further : Except ArgumentError Scan} {scan : Scan}
    (success : step <$> further = .ok scan) :
    ∃ later, further = .ok later ∧ step later = scan := by
  cases further with
  | error error => cases success
  | ok later => exact ⟨later, rfl, Except.ok.inj success⟩

theorem scans_of_ofArguments {arguments : List Text} {scan : Scan}
    (scanned : Scan.ofArguments arguments = .ok scan) : Scans arguments scan := by
  fun_induction Scan.ofArguments arguments generalizing scan with
  | case1 =>
    cases scanned
    exact .nothing
  | case2 argument rest kind =>
    cases scanned
    exact .terminator kind
  | case3 argument rest kind ih =>
    obtain ⟨later, further, rfl⟩ := exists_of_map_ok scanned
    exact .verbose kind (ih further)
  | case4 argument kind => cases scanned
  | case5 argument kind value others ih =>
    obtain ⟨count, reads, counted⟩ := ok_of_bind_ok scanned
    obtain ⟨later, further, rfl⟩ := exists_of_map_ok counted
    exact .maxResults kind reads (ih further)
  | case6 argument rest value kind ih =>
    obtain ⟨count, reads, counted⟩ := ok_of_bind_ok scanned
    obtain ⟨later, further, rfl⟩ := exists_of_map_ok counted
    exact .maxResultsWith kind reads (ih further)
  | case7 argument rest kind ih =>
    obtain ⟨later, further, rfl⟩ := exists_of_map_ok scanned
    exact .unknownOption kind (ih further)
  | case8 argument rest kind ih =>
    obtain ⟨later, further, rfl⟩ := exists_of_map_ok scanned
    exact .operand kind (ih further)

def countOf (values : List Text) : Option Binary64 :=
  values.getLast?.map fun value => Binary64.ofNat value.decimal

theorem countOf_cons {value : Text} {values : List Text} {count : Binary64}
    (reads : readCount value = .ok count) :
    countOf (value :: values) = some ((countOf values).getD count) := by
  rw [countOf, countOf, List.getLast?_cons, Option.map_some, eq_of_readCount reads,
    Option.getD_map]

theorem Scans.maxResults_eq {arguments : List Text} {scan : Scan} (scans : Scans arguments scan) :
    scan.maxResults = countOf (counts arguments) := by
  induction scans with
  | nothing => rfl
  | terminator kind =>
    unfold counts
    simp only [kind]
    rfl
  | maxResults kind reads _ ih =>
    unfold counts
    simp only [kind, countOf_cons reads, ← ih, Scan.addCount]
  | maxResultsWith kind reads _ ih =>
    unfold counts
    simp only [kind, countOf_cons reads, ← ih, Scan.addCount]
  | verbose kind _ ih | unknownOption kind _ ih | operand kind _ ih =>
    unfold counts
    simp only [kind]
    exact ih

theorem maxResults_of_parse {arguments : List Text} {request : SearchRequest}
    (parsed : parse arguments = .ok (.search request)) :
    request.maxResults =
      (lastCount? arguments).map fun value => Binary64.ofNat value.decimal := by
  unfold parse at parsed
  split at parsed
  · cases parsed
  · obtain ⟨scan, scanned, requested⟩ := ok_of_bind_ok parsed
    unfold Scan.request at requested
    split at requested
    · cases requested
    · cases requested
    · cases requested
      exact (scans_of_ofArguments scanned).maxResults_eq

end Arguments
end HtmlFragments
