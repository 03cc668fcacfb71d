import HtmlFragments.Proofs.CommandLine.Counts

/-! # Options among operands

Options may stand anywhere among the operands. The scan takes one operand or one option after the
other, and each of them adds the same to what comes of the rest, wherever it stands. Main result:
what the arguments ask for is decided by the operands in their order and the options in theirs, not
by how the two are put together, and everything after `--` is an operand more. -/
set_option autoImplicit false

namespace HtmlFragments.Arguments

/-! ## Operands and options as they are given -/

/-- What starts with `-` is an operand only where nothing follows the `-`. -/
def IsOperand (argument : Text) : Prop := argument.head? = some 0x2D → argument = [0x2D]

structure IsUnknownOption (argument : Text) : Prop where
  dashed : argument.head? = some 0x2D
  long : 1 < argument.length
  notTerminator : argument ≠ endOfOptions
  notVerbose : argument ≠ verboseFlag
  notMaxResults : argument ≠ maxResultsFlag
  notCount : ¬maxResultsFlag ++ [0x3D] <+: argument

inductive GivenOption where
  | verbose
  /-- The value is the next argument, whatever that looks like. -/
  | count (value : Text)
  /-- The value stands behind a `=`. -/
  | countWith (value : Text)
  | unknown (option : Text) (isUnknown : IsUnknownOption option)

namespace GivenOption

def arguments : GivenOption → List Text
  | .verbose => [verboseFlag]
  | .count value => [maxResultsFlag, value]
  | .countWith value => [maxResultsFlag ++ 0x3D :: value]
  | .unknown option _ => [option]

def value? : GivenOption → Option Text
  | .count value | .countWith value => some value
  | .verbose | .unknown .. => none

def unknown? : GivenOption → Option Text
  | .unknown option _ => some option
  | .verbose | .count _ | .countWith _ => none

def isVerbose : GivenOption → Bool
  | .verbose => true
  | .count _ | .countWith _ | .unknown .. => false

def values (options : List GivenOption) : List Text := options.filterMap value?

end GivenOption

/-- Arguments in which operands and options keep their orders, and an option its value. -/
inductive Interleaves : List Text → List GivenOption → List Text → Prop where
  | nothing : Interleaves [] [] []
  | operand {operand : Text} {operands arguments : List Text} {options : List GivenOption} :
      IsOperand operand → Interleaves operands options arguments →
      Interleaves (operand :: operands) options (operand :: arguments)
  | option (option : GivenOption) {operands arguments : List Text} {options : List GivenOption} :
      Interleaves operands options arguments →
      Interleaves operands (option :: options) (option.arguments ++ arguments)

def IsCount (value : Text) : Prop := value ≠ [] ∧ ∀ unit ∈ value, CodeUnit.isDigit unit = true

instance (value : Text) : Decidable (IsCount value) :=
  decidable_of_iff (value ≠ [] ∧ value.all CodeUnit.isDigit = true) (by simp [IsCount])

def invalid? (options : List GivenOption) : Option Text :=
  (GivenOption.values options).find? fun value => ¬IsCount value

/-- What operands and options ask for: a value that is no count is reported before an unknown
option, and that before a missing query. -/
def asked (operands : List Text) (options : List GivenOption) : Except ArgumentError Request :=
  match invalid? options with
  | some value => .error (.countInvalid value)
  | none =>
    match (options.filterMap GivenOption.unknown?).head? with
    | some option => .error (.unknownOption option)
    | none =>
      match operands with
      | [] => .error .queryMissing
      | query :: files =>
        .ok (.search {
          query := query
          inputs := if files = [] then .standardInput else .files files
          maxResults := countOf (GivenOption.values options)
          verbose := options.any GivenOption.isVerbose })

/-! ## One operand or option -/

theorem head?_of_front {argument flag : Text}
    (known : flag ∈ [endOfOptions, verboseFlag, maxResultsFlag, maxResultsFlag ++ [0x3D]])
    (front : flag <+: argument) : argument.head? = some 0x2D := by
  have dashed : ∀ flag ∈ [endOfOptions, verboseFlag, maxResultsFlag, maxResultsFlag ++ [0x3D]],
      flag.head? = some 0x2D := by decide
  obtain ⟨more, rfl⟩ := front
  obtain ⟨rest, rfl⟩ := List.head?_eq_some_iff.mp (dashed flag known)
  rfl

theorem kind_operand {argument : Text} (isOperand : IsOperand argument) :
    Kind.ofText argument = .operand := by
  by_cases dashed : argument.head? = some 0x2D
  · rw [isOperand dashed]
    decide
  have notFlag : ∀ flag ∈ [endOfOptions, verboseFlag, maxResultsFlag], argument ≠ flag := by
    rintro flag known rfl
    exact dashed (head?_of_front (List.mem_append_left [_] known) List.prefix_rfl)
  have notCount : ¬(maxResultsFlag ++ [0x3D]).isPrefixOf argument = true := fun front =>
    dashed (head?_of_front (by simp) (List.isPrefixOf_iff_prefix.mp front))
  have notOption : ¬startsLikeOption argument = true := by
    unfold startsLikeOption
    split
    · exact absurd rfl dashed
    · decide
  rw [Kind.ofText, if_neg (notFlag _ (by simp)), if_neg (notFlag _ (by simp)),
    if_neg (notFlag _ (by simp)), if_neg notCount, if_neg notOption]

theorem kind_unknownOption {argument : Text} (isUnknown : IsUnknownOption argument) :
    Kind.ofText argument = .unknownOption := by
  have option : startsLikeOption argument = true := by
    obtain ⟨more, rfl⟩ := List.head?_eq_some_iff.mp isUnknown.dashed
    cases more with
    | nil => exact absurd isUnknown.long (by decide)
    | cons unit more => rfl
  have notCount : ¬(maxResultsFlag ++ [0x3D]).isPrefixOf argument = true := fun front =>
    isUnknown.notCount (List.isPrefixOf_iff_prefix.mp front)
  rw [Kind.ofText, if_neg isUnknown.notTerminator, if_neg isUnknown.notVerbose,
    if_neg isUnknown.notMaxResults, if_neg notCount, if_pos option]

theorem kind_countWith (value : Text) :
    Kind.ofText (maxResultsFlag ++ 0x3D :: value) = .maxResultsWith value := by
  have split : maxResultsFlag ++ 0x3D :: value = (maxResultsFlag ++ [0x3D]) ++ value := by simp
  have shorter : ∀ flag ∈ [endOfOptions, verboseFlag, maxResultsFlag],
      flag.length < (maxResultsFlag ++ [0x3D]).length := by decide
  have notFlag : ∀ flag ∈ [endOfOptions, verboseFlag, maxResultsFlag],
      maxResultsFlag ++ 0x3D :: value ≠ flag := by
    rintro flag known rfl
    have longer := shorter _ known
    rw [split, List.length_append] at longer
    omega
  have front : (maxResultsFlag ++ [0x3D]).isPrefixOf (maxResultsFlag ++ 0x3D :: value) = true := by
    rw [List.isPrefixOf_iff_prefix, split]
    exact List.prefix_append _ _
  rw [Kind.ofText, if_neg (notFlag _ (by simp)), if_neg (notFlag _ (by simp)),
    if_neg (notFlag _ (by simp)), if_pos front, split]
  rfl

theorem readCount_eq (value : Text) :
    readCount value =
      if IsCount value then .ok (Binary64.ofNat value.decimal) else .error (.countInvalid value) := by
  have same : (value.isEmpty || !value.all CodeUnit.isDigit) = true ↔ ¬IsCount value := by
    simp [IsCount, or_iff_not_imp_left]
  by_cases isCount : IsCount value
  · rw [readCount, if_neg (mt same.mp (not_not.mpr isCount)), if_pos isCount,
      Text.numberOfDigits_ten]
  · rw [readCount, if_pos (same.mpr isCount), if_neg isCount]

def GivenOption.added (option : GivenOption) (further : Except ArgumentError Scan) :
    Except ArgumentError Scan :=
  match option with
  | .verbose => Scan.addVerbose <$> further
  | .count value | .countWith value => do
    let count ← readCount value
    Scan.addCount count <$> further
  | .unknown option _ => Scan.addUnknownOption option <$> further

theorem ofArguments_option (option : GivenOption) (rest : List Text) :
    Scan.ofArguments (option.arguments ++ rest) = option.added (Scan.ofArguments rest) := by
  cases option with
  | verbose => exact Scan.ofArguments_verbose rest (by decide)
  | count value => exact Scan.ofArguments_maxResults rest value (by decide)
  | countWith value => exact Scan.ofArguments_maxResultsWith rest (kind_countWith value)
  | unknown option isUnknown =>
    exact Scan.ofArguments_unknownOption rest (kind_unknownOption isUnknown)

/-! ## All operands and options -/

def scanned (operands : List Text) (options : List GivenOption) : Except ArgumentError Scan :=
  match invalid? options with
  | some value => .error (.countInvalid value)
  | none =>
    .ok {
      operands := operands
      unknownOptions := options.filterMap GivenOption.unknown?
      maxResults := countOf (GivenOption.values options)
      verbose := options.any GivenOption.isVerbose }

theorem addOperand_scanned (operand : Text) (operands : List Text) (options : List GivenOption) :
    Scan.addOperand operand <$> scanned operands options =
      scanned (operand :: operands) options := by
  unfold scanned
  cases invalid? options <;> rfl

theorem invalid?_of_value? {option : GivenOption} {value : Text} (options : List GivenOption)
    (given : option.value? = some value) :
    invalid? (option :: options) = if IsCount value then invalid? options else some value := by
  rw [invalid?, GivenOption.values, List.filterMap_cons_some given, List.find?_cons]
  by_cases isCount : IsCount value
  · simp [isCount, invalid?, GivenOption.values]
  · simp [isCount]

theorem counted_scanned {option : GivenOption} {value : Text} (operands : List Text)
    (options : List GivenOption) (given : option.value? = some value)
    (known : option.unknown? = none) (quiet : option.isVerbose = false) :
    (readCount value >>= fun count => Scan.addCount count <$> scanned operands options) =
      scanned operands (option :: options) := by
  rw [scanned, scanned, invalid?_of_value? options given]
  by_cases isCount : IsCount value
  · have reads : readCount value = .ok (Binary64.ofNat value.decimal) := by
      rw [readCount_eq, if_pos isCount]
    rw [reads, if_pos isCount]
    cases invalid? options with
    | some other => rfl
    | none =>
      simp only [GivenOption.values, List.filterMap_cons_some given,
        List.filterMap_cons_none known, List.any_cons, quiet, Bool.false_or, countOf_cons reads]
      rfl
  · rw [readCount_eq, if_neg isCount, if_neg isCount]
    rfl

theorem added_scanned (option : GivenOption) (operands : List Text) (options : List GivenOption) :
    option.added (scanned operands options) = scanned operands (option :: options) := by
  cases option with
  | verbose =>
    have same : invalid? (.verbose :: options) = invalid? options := rfl
    rw [scanned, scanned, same]
    cases invalid? options <;> rfl
  | count value => exact counted_scanned operands options rfl rfl rfl
  | countWith value => exact counted_scanned operands options rfl rfl rfl
  | unknown option isUnknown =>
    have same : invalid? (.unknown option isUnknown :: options) = invalid? options := rfl
    rw [scanned, scanned, same]
    cases invalid? options <;> rfl

theorem Interleaves.ofArguments {operands arguments : List Text} {options : List GivenOption}
    (interleaves : Interleaves operands options arguments) {tail later : List Text}
    (ends : Scan.ofArguments tail = .ok { operands := later }) :
    Scan.ofArguments (arguments ++ tail) = scanned (operands ++ later) options := by
  induction interleaves with
  | nothing => exact ends
  | operand isOperand _ ih =>
    rw [List.cons_append, Scan.ofArguments_operand _ (kind_operand isOperand), ih,
      addOperand_scanned]
    rfl
  | option option _ ih => rw [List.append_assoc, ofArguments_option, ih, added_scanned]

theorem request_of_scanned (operands : List Text) (options : List GivenOption) :
    scanned operands options >>= Scan.request = asked operands options := by
  unfold scanned asked
  cases invalid? options with
  | some value => rfl
  | none =>
    show Scan.request _ = _
    unfold Scan.request
    cases options.filterMap GivenOption.unknown? with
    | cons option others => rfl
    | nil =>
      cases operands with
      | nil => rfl
      | cons query files => cases files <;> rfl

/-- Main result: what arguments ask for is decided by their operands and their options, however
the two are put together; what stands after `--` is an operand more. -/
theorem parse_interleaved {operands arguments : List Text} {options : List GivenOption}
    (interleaves : Interleaves operands options arguments)
    (short : Text.ofString "-h" ∉ arguments) (long : Text.ofString "--help" ∉ arguments) :
    parse arguments = asked operands options ∧
      ∀ rest, Text.ofString "-h" ∉ rest → Text.ofString "--help" ∉ rest →
        parse (arguments ++ endOfOptions :: rest) = asked (operands ++ rest) options := by
  constructor
  · have noHelp : ¬asksForHelp arguments = true := by
      rw [asksForHelp_iff]
      exact fun flagged => flagged.elim short long
    have scan : Scan.ofArguments (arguments ++ []) = scanned (operands ++ []) options :=
      interleaves.ofArguments rfl
    rw [List.append_nil, List.append_nil] at scan
    rw [parse, if_neg noHelp, scan, request_of_scanned]
  · intro rest shortRest longRest
    have noHelp : ¬asksForHelp (arguments ++ endOfOptions :: rest) = true := by
      have notShort : Text.ofString "-h" ≠ endOfOptions := by decide
      have notLong : Text.ofString "--help" ≠ endOfOptions := by decide
      rw [asksForHelp_iff]
      simp [short, long, shortRest, longRest, notShort, notLong]
    rw [parse, if_neg noHelp, interleaves.ofArguments rfl, request_of_scanned]

/-- A count that is taken from the next argument, another one behind a `=`, and `-` as a file. -/
theorem parse_interleaved_counts :
    let arguments := ["--max-results", "2", "p", "--verbose", "-", "--max-results=7"].map
      Text.ofString
    (Interleaves [Text.ofString "p", Text.ofString "-"]
        [.count (Text.ofString "2"), .verbose, .countWith (Text.ofString "7")] arguments ∧
        Text.ofString "-h" ∉ arguments ∧ Text.ofString "--help" ∉ arguments) ∧
      parse arguments = .ok (.search ⟨Text.ofString "p", .files [Text.ofString "-"],
        some (Binary64.ofNat 7), true⟩) ∧
      parse (arguments ++ [Text.ofString "--", Text.ofString "--verbose"]) =
        .ok (.search ⟨Text.ofString "p", .files [Text.ofString "-", Text.ofString "--verbose"],
          some (Binary64.ofNat 7), true⟩) := by
  intro arguments
  have word : IsOperand (Text.ofString "p") := fun dashed => absurd dashed (by decide)
  have dash : IsOperand (Text.ofString "-") := fun _ => rfl
  have interleaves : Interleaves [Text.ofString "p", Text.ofString "-"]
      [.count (Text.ofString "2"), .verbose, .countWith (Text.ofString "7")] arguments :=
    .option (.count _) (.operand word (.option .verbose (.operand dash
      (.option (.countWith _) .nothing))))
  have short : Text.ofString "-h" ∉ arguments := by decide
  have long : Text.ofString "--help" ∉ arguments := by decide
  obtain ⟨alone, withRest⟩ := parse_interleaved interleaves short long
  refine ⟨⟨interleaves, short, long⟩, alone.trans (by decide +kernel), ?_⟩
  exact (withRest [Text.ofString "--verbose"] (by decide) (by decide)).trans (by decide +kernel)

end HtmlFragments.Arguments
