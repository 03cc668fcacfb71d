import HtmlFragments.Unicode.LowerCase

/-! # Lower case unit by unit

Lower case goes along a text one unit at a time, except that the dotted capital I becomes two units.
Of the units beyond ASCII only the Kelvin sign gets a lower case in ASCII, the letter `k`. So where
no dotted capital I stands, a place in a text and the same place in its lower case agree on every
other ASCII letter up to case. -/
set_option autoImplicit false

namespace HtmlFragments

namespace CodeUnit

/-- The capital I with a dot above, the only unit whose lower case has two units. -/
def dottedCapital : CodeUnit := 0x130

def asciiLower (unit : CodeUnit) : CodeUnit :=
  if 0x41 ≤ unit && unit ≤ 0x5A then unit + 0x20 else unit

theorem asciiLower_toNat (unit : CodeUnit) :
    (asciiLower unit).toNat =
      if 0x41 ≤ unit.toNat ∧ unit.toNat ≤ 0x5A then unit.toNat + 0x20 else unit.toNat := by
  have same : (0x41 ≤ unit && unit ≤ 0x5A) = true ↔ 0x41 ≤ unit.toNat ∧ unit.toNat ≤ 0x5A := by
    rw [Bool.and_eq_true, decide_eq_true_eq, decide_eq_true_eq]
    exact Iff.rfl
  unfold asciiLower
  by_cases capital : 0x41 ≤ unit.toNat ∧ unit.toNat ≤ 0x5A
  · rw [if_pos (same.mpr capital), if_pos capital, UInt16.toNat_add]
    show (unit.toNat + 0x20) % 0x10000 = _
    omega
  · rw [if_neg (mt same.mp capital), if_neg capital]

theorem asciiLower_ascii {unit : CodeUnit} (below : asciiLower unit < 0x80) : unit < 0x80 := by
  have bound : (asciiLower unit).toNat < 0x80 := below
  rw [asciiLower_toNat] at bound
  show unit.toNat < 0x80
  split at bound <;> omega

theorem eq_of_asciiLower {unit lower : CodeUnit} (lowers : asciiLower unit = lower)
    (notLetter : ¬(0x61 ≤ lower.toNat ∧ lower.toNat ≤ 0x7A)) : unit = lower := by
  have value := asciiLower_toNat unit
  rw [lowers] at value
  apply UInt16.toNat_inj.mp
  split at value <;> omega

/-- What the lower case of a unit may be: its ASCII lower case, or, beyond ASCII, a unit beyond
ASCII or `k`. -/
def LowersTo (unit lower : CodeUnit) : Prop :=
  if unit < 0x80 then lower = asciiLower unit else 0x80 ≤ lower ∨ lower = 0x6B

theorem LowersTo.ascii {unit lower : CodeUnit} (lowers : LowersTo unit lower)
    (ascii : lower < 0x80) (notK : lower ≠ 0x6B) : asciiLower unit = lower := by
  unfold LowersTo at lowers
  split at lowers
  · exact lowers.symm
  · rcases lowers with beyond | k
    · exact absurd ascii (UInt16.not_lt.mpr beyond)
    · exact absurd k notK

end CodeUnit

namespace Unicode

/-! ## The table of runs -/

def CaseRun.Sound (run : CaseRun) : Prop :=
  (0x80 ≤ run.first + run.shift ∨ run.first = run.last ∧ run.first + run.shift = 0x6B) ∧
    (run.last < 0x10000 ∧ run.last + run.shift < 0x10000 ∨
      0x10000 ≤ run.first ∧ 0x10000 ≤ run.first + run.shift ∧ run.last + run.shift ≤ 0x10FFFF)

instance (run : CaseRun) : Decidable run.Sound := inferInstanceAs (Decidable (_ ∧ _))

theorem caseRuns_sound : ∀ run ∈ caseRuns, run.Sound := by decide +kernel

/-- Beyond ASCII a point stays as it is or moves along a run of the table. -/
theorem simpleLower_cases {point : Nat} (beyond : 0x80 ≤ point) :
    simpleLower point = point ∨
      ∃ run ∈ caseRuns, run.Covers point ∧ simpleLower point = (point + run.shift).toNat := by
  rw [simpleLower, if_neg (by omega)]
  cases found : caseRuns.find? fun run => point ≤ run.last with
  | none => exact .inl rfl
  | some run =>
    by_cases covers : run.Covers point
    · exact .inr ⟨run, List.mem_of_find?_eq_some found, covers, if_pos covers⟩
    · exact .inl (if_neg covers)

theorem simpleLower_basic {point : Nat} (beyond : 0x80 ≤ point) (basic : point < 0x10000) :
    (0x80 ≤ simpleLower point ∨ simpleLower point = 0x6B) ∧ simpleLower point < 0x10000 := by
  rcases simpleLower_cases beyond with same | ⟨run, member, ⟨least, most, _⟩, moved⟩
  · rw [same]
    exact ⟨.inl beyond, basic⟩
  · obtain ⟨ascii, plane⟩ := caseRuns_sound run member
    omega

theorem simpleLower_supplementary {point : Nat} (beyond : 0x10000 ≤ point)
    (bounded : point ≤ 0x10FFFF) :
    0x10000 ≤ simpleLower point ∧ simpleLower point ≤ 0x10FFFF := by
  have wide : 0x80 ≤ point := by omega
  rcases simpleLower_cases wide with same | ⟨run, member, ⟨least, most, _⟩, moved⟩
  · rw [same]
    exact ⟨beyond, bounded⟩
  · obtain ⟨_, plane⟩ := caseRuns_sound run member
    omega

/-! ## The lower case of one point -/

def lowerPoint (behind : Bool) (rest : List Nat) (point : Nat) : List Nat :=
  if point = capitalSigma then [if behind && !casedAhead rest then finalSigma else smallSigma]
  else if point = dottedCapitalI then [simpleLower 0x49, combiningDot]
  else [simpleLower point]

theorem lowerPoints_cons (behind : Bool) (point : Nat) (rest : List Nat) :
    lowerPoints behind (point :: rest) =
      lowerPoint behind rest point ++ lowerPoints (casedBehind behind point) rest := rfl

theorem le_ofNat {number : Nat} (beyond : 0x80 ≤ number) (bounded : number < 0x10000) :
    (0x80 : CodeUnit) ≤ UInt16.ofNat number := by
  rw [UInt16.le_iff_toNat_le, UInt16.toNat_ofNat_of_lt' bounded]
  exact beyond

theorem simpleLower_lowersTo (unit : CodeUnit) :
    Text.encode (simpleLower unit.toNat) = [UInt16.ofNat (simpleLower unit.toNat)] ∧
      CodeUnit.LowersTo unit (UInt16.ofNat (simpleLower unit.toNat)) := by
  have bound : unit.toNat < 0x10000 := unit.toNat_lt
  by_cases ascii : unit.toNat < 0x80
  · have lower : simpleLower unit.toNat = (CodeUnit.asciiLower unit).toNat := by
      rw [CodeUnit.asciiLower_toNat]
      exact if_pos ascii
    rw [lower, UInt16.ofNat_toNat]
    refine ⟨?_, ?_⟩
    · rw [Text.encode, if_pos (CodeUnit.asciiLower unit).toNat_lt, UInt16.ofNat_toNat]
    · rw [CodeUnit.LowersTo, if_pos (UInt16.lt_iff_toNat_lt.mpr ascii)]
  · obtain ⟨beyond, below⟩ := simpleLower_basic (by omega) bound
    refine ⟨if_pos below, ?_⟩
    rw [CodeUnit.LowersTo, if_neg (by rw [UInt16.lt_iff_toNat_lt]; exact ascii)]
    rcases beyond with beyond | k
    · exact .inl (le_ofNat beyond below)
    · exact .inr (by rw [k]; rfl)

theorem lowerPoint_lowersTo (behind : Bool) (rest : List Nat) (unit : CodeUnit)
    (notDotted : unit ≠ CodeUnit.dottedCapital) :
    ∃ lower, (lowerPoint behind rest unit.toNat).flatMap Text.encode = [lower] ∧
      CodeUnit.LowersTo unit lower := by
  by_cases sigma : unit.toNat = capitalSigma
  · have same : unit = 0x3A3 := UInt16.toNat_inj.mp sigma
    subst same
    rw [lowerPoint, if_pos sigma]
    split
    · exact ⟨0x3C2, rfl, .inl (by decide)⟩
    · exact ⟨0x3C3, rfl, .inl (by decide)⟩
  · have plain : unit.toNat ≠ dottedCapitalI := fun same =>
      notDotted (UInt16.toNat_inj.mp same)
    obtain ⟨encoded, lowers⟩ := simpleLower_lowersTo unit
    refine ⟨_, ?_, lowers⟩
    rw [lowerPoint, if_neg sigma, if_neg plain, List.flatMap_singleton, encoded]

theorem lowerPoint_supplementary (behind : Bool) (rest : List Nat) (point : Nat)
    (beyond : 0x10000 ≤ point) (bounded : point ≤ 0x10FFFF) :
    ∃ high low, (lowerPoint behind rest point).flatMap Text.encode = [high, low] ∧
      (0x80 : CodeUnit) ≤ high ∧ (0x80 : CodeUnit) ≤ low := by
  obtain ⟨least, most⟩ := simpleLower_supplementary beyond bounded
  have notSigma : point ≠ capitalSigma := by
    rw [capitalSigma]
    omega
  have notDotted : point ≠ dottedCapitalI := by
    rw [dottedCapitalI]
    omega
  rw [lowerPoint, if_neg notSigma, if_neg notDotted, List.flatMap_singleton, Text.encode,
    if_neg (by omega)]
  exact ⟨_, _, rfl, le_ofNat (by omega) (by omega), le_ofNat (by omega) (by omega)⟩

end Unicode

namespace Text

/-- A text and its lower case, unit by unit. -/
inductive Lowered : Text → Text → Prop where
  | nil : Lowered [] []
  | cons {unit lower : CodeUnit} {text lowers : Text} : unit ≠ CodeUnit.dottedCapital →
      CodeUnit.LowersTo unit lower → Lowered text lowers → Lowered (unit :: text) (lower :: lowers)
  | dotted {text lowers : Text} : Lowered text lowers →
      Lowered (CodeUnit.dottedCapital :: text) (0x69 :: 0x307 :: lowers)

theorem lowered_single {unit : CodeUnit} {text lowers : Text} (behind : Bool) (rest : List Nat)
    (later : Lowered text lowers) :
    Lowered (unit :: text)
      ((Unicode.lowerPoint behind rest unit.toNat).flatMap encode ++ lowers) := by
  by_cases dotted : unit = CodeUnit.dottedCapital
  · subst dotted
    exact .dotted later
  · obtain ⟨lower, encoded, lowers⟩ := Unicode.lowerPoint_lowersTo behind rest unit dotted
    rw [encoded]
    exact .cons dotted lowers later

theorem surrogates_of_pair {unit next : CodeUnit}
    (pair : (CodeUnit.isHighSurrogate unit && CodeUnit.isLowSurrogate next) = true) :
    (0xD800 ≤ unit.toNat ∧ unit.toNat ≤ 0xDBFF) ∧ 0xDC00 ≤ next.toNat ∧ next.toNat ≤ 0xDFFF := by
  simpa [CodeUnit.isHighSurrogate, CodeUnit.isLowSurrogate, UInt16.le_iff_toNat_le] using pair

theorem notDotted_of_le {unit : CodeUnit} (surrogate : 0xD800 ≤ unit.toNat) :
    unit ≠ CodeUnit.dottedCapital := by
  rintro rfl
  exact absurd surrogate (by decide)

theorem lowersTo_of_le {unit lower : CodeUnit} (surrogate : 0xD800 ≤ unit.toNat)
    (beyond : 0x80 ≤ lower) : CodeUnit.LowersTo unit lower := by
  have notAscii : ¬unit < 0x80 := by
    intro ascii
    have below : unit.toNat < 0x80 := ascii
    omega
  rw [CodeUnit.LowersTo, if_neg notAscii]
  exact .inl beyond

theorem lowered_lowerPoints (behind : Bool) (text : Text) :
    Lowered text ((Unicode.lowerPoints behind text.codePoints).flatMap encode) := by
  induction text using codePoints.induct generalizing behind with
  | case1 => exact .nil
  | case2 unit =>
    rw [codePoints, Unicode.lowerPoints_cons, List.flatMap_append]
    exact lowered_single behind [] .nil
  | case3 unit next rest pair ih =>
    obtain ⟨high, low⟩ := surrogates_of_pair pair
    rw [codePoints, if_pos pair, Unicode.lowerPoints_cons, List.flatMap_append]
    obtain ⟨first, second, encoded, firstBeyond, secondBeyond⟩ :=
      Unicode.lowerPoint_supplementary behind (codePoints rest)
        (0x10000 + (unit.toNat - 0xD800) * 0x400 + (next.toNat - 0xDC00)) (by omega) (by omega)
    rw [encoded]
    exact .cons (notDotted_of_le (by omega)) (lowersTo_of_le (by omega) firstBeyond)
      (.cons (notDotted_of_le (by omega)) (lowersTo_of_le (by omega) secondBeyond) (ih _))
  | case4 unit next rest notPair ih =>
    rw [codePoints, if_neg notPair, Unicode.lowerPoints_cons, List.flatMap_append]
    exact lowered_single behind _ (ih _)

theorem lowered_lowerCase (text : Text) : Lowered text text.lowerCase :=
  lowered_lowerPoints false text

/-! ## Places in a text and in its lower case -/

theorem lowered_append {front back lowers : Text} (lowered : Lowered (front ++ back) lowers) :
    ∃ first second, lowers = first ++ second ∧ Lowered front first ∧ Lowered back second := by
  induction front generalizing lowers with
  | nil => exact ⟨[], lowers, rfl, .nil, lowered⟩
  | cons unit front ih =>
    cases lowered with
    | cons notDotted lowersTo later =>
      obtain ⟨first, second, rfl, lowersFront, lowersBack⟩ := ih later
      exact ⟨_ :: first, second, rfl, .cons notDotted lowersTo lowersFront, lowersBack⟩
    | dotted later =>
      obtain ⟨first, second, rfl, lowersFront, lowersBack⟩ := ih later
      exact ⟨0x69 :: 0x307 :: first, second, rfl, .dotted lowersFront, lowersBack⟩

/-- Each dotted capital I makes the lower case longer by one unit. -/
theorem lowered_length_count {text lowers : Text} (lowered : Lowered text lowers) :
    lowers.length = text.length + text.count CodeUnit.dottedCapital := by
  induction lowered with
  | nil => rfl
  | cons notDotted _ _ ih =>
    rw [List.length_cons, List.length_cons, List.count_cons_of_ne notDotted, ih]
    omega
  | dotted _ ih =>
    rw [List.length_cons, List.length_cons, List.length_cons, List.count_cons_self, ih]
    omega

theorem lowered_length {text lowers : Text} (undotted : CodeUnit.dottedCapital ∉ text)
    (lowered : Lowered text lowers) : lowers.length = text.length := by
  rw [lowered_length_count lowered, List.count_eq_zero.mpr undotted, Nat.add_zero]

theorem lowered_drop {front : Text} (back : Text) (undotted : CodeUnit.dottedCapital ∉ front) :
    Lowered back ((front ++ back).lowerCase.drop front.length) := by
  obtain ⟨first, second, whole, lowersFront, lowersBack⟩ :=
    lowered_append (lowered_lowerCase (front ++ back))
  rw [whole, ← lowered_length undotted lowersFront, List.drop_left]
  exact lowersBack

theorem getLast?_cons_of_eq {unit last : CodeUnit} {front : Text}
    (ends : front.getLast? = some last) : (unit :: front).getLast? = some last := by
  rw [List.getLast?_cons, ends]
  rfl

/-- A part of the lower case comes from a part of the text, unless a dotted capital I is lowered to
its last unit and the one after it. -/
theorem lowered_split_of_uncut {text front back : Text}
    (uncut : CodeUnit.dottedCapital ∈ text → front.getLast? = some 0x69 → back.head? ≠ some 0x307)
    (lowered : Lowered text (front ++ back)) :
    ∃ first second, text = first ++ second ∧ Lowered first front ∧ Lowered second back := by
  generalize shape : front ++ back = whole at lowered
  induction lowered generalizing front with
  | nil =>
    obtain ⟨rfl, rfl⟩ := List.append_eq_nil_iff.mp shape
    exact ⟨[], [], rfl, .nil, .nil⟩
  | cons notDotted lowersTo later ih =>
    cases front with
    | nil =>
      obtain rfl : back = _ := shape
      exact ⟨[], _, rfl, .nil, .cons notDotted lowersTo later⟩
    | cons lower front =>
      obtain ⟨rfl, rest⟩ := List.cons.inj shape
      obtain ⟨first, second, rfl, lowersFront, lowersBack⟩ :=
        ih (fun member last => uncut (.tail _ member) (getLast?_cons_of_eq last)) rest
      exact ⟨_ :: first, second, rfl, .cons notDotted lowersTo lowersFront, lowersBack⟩
  | dotted later ih =>
    match front with
    | [] =>
      obtain rfl : back = _ := shape
      exact ⟨[], _, rfl, .nil, .dotted later⟩
    | [lower] =>
      obtain ⟨rfl, rfl⟩ := List.cons.inj shape
      exact absurd rfl (uncut List.mem_cons_self rfl)
    | lower :: mark :: front =>
      obtain ⟨rfl, others⟩ := List.cons.inj shape
      obtain ⟨rfl, rest⟩ := List.cons.inj others
      obtain ⟨first, second, rfl, lowersFront, lowersBack⟩ :=
        ih (fun member last =>
          uncut (.tail _ member) (getLast?_cons_of_eq (getLast?_cons_of_eq last))) rest
      exact ⟨_ :: first, second, rfl, .dotted lowersFront, lowersBack⟩

theorem lowered_split {text front back : Text} (undotted : CodeUnit.dottedCapital ∉ text)
    (lowered : Lowered text (front ++ back)) :
    ∃ first second, text = first ++ second ∧ Lowered first front ∧ Lowered second back :=
  lowered_split_of_uncut (fun member => absurd member undotted) lowered

/-- A lower case in ASCII without the letter `k` is the ASCII lower case of its text. -/
theorem lowered_ascii {text lowers : Text} (lowered : Lowered text lowers)
    (ascii : ∀ lower ∈ lowers, lower < 0x80 ∧ lower ≠ 0x6B) :
    text.map CodeUnit.asciiLower = lowers := by
  induction lowered with
  | nil => rfl
  | cons _ lowersTo _ ih =>
    obtain ⟨below, notK⟩ := ascii _ List.mem_cons_self
    rw [List.map_cons, lowersTo.ascii below notK,
      ih fun lower member => ascii lower (.tail _ member)]
  | dotted _ _ =>
    exact absurd (ascii 0x307 (.tail _ List.mem_cons_self)).1 (by decide)

theorem lowered_of_ascii {text lowers : Text} (ascii : ∀ unit ∈ text, unit < 0x80)
    (lowered : Lowered text lowers) : lowers = text.map CodeUnit.asciiLower := by
  induction lowered with
  | nil => rfl
  | cons _ lowersTo _ ih =>
    rw [CodeUnit.LowersTo, if_pos (ascii _ List.mem_cons_self)] at lowersTo
    rw [List.map_cons, lowersTo, ih fun unit member => ascii unit (.tail _ member)]
  | dotted _ _ => exact absurd (ascii _ List.mem_cons_self) (by decide)

end Text

/-! ## A text behind another one

A `<` is neither cased nor ignorable, so that no word goes on across it. -/

namespace Unicode

theorem casedAhead_append (points rest : List Nat) :
    casedAhead (points ++ 0x3C :: rest) = casedAhead points := by
  induction points with
  | nil =>
    have ignorable : isIgnorable 0x3C = false := by decide +kernel
    have cased : isCased 0x3C = false := by decide +kernel
    show (if isIgnorable 0x3C then casedAhead rest else isCased 0x3C) = false
    rw [ignorable, cased]
    rfl
  | cons point points ih => rw [List.cons_append, casedAhead, casedAhead, ih]

theorem lowerPoints_append (behind : Bool) (points rest : List Nat) :
    lowerPoints behind (points ++ 0x3C :: rest) =
      lowerPoints behind points ++ lowerPoints false (0x3C :: rest) := by
  induction points generalizing behind with
  | nil =>
    have ends : ∀ before, casedBehind before 0x3C = false := by decide +kernel
    rw [List.nil_append, lowerPoints_cons, lowerPoints_cons, ends, ends]
    rfl
  | cons point points ih =>
    rw [List.cons_append, lowerPoints_cons, lowerPoints_cons, ih, List.append_assoc, lowerPoint,
      lowerPoint, casedAhead_append]

end Unicode

namespace Text

theorem codePoints_append (front rest : Text) :
    (front ++ 0x3C :: rest).codePoints = front.codePoints ++ 0x3C :: rest.codePoints := by
  have opening : codePoints (0x3C :: rest) = 0x3C :: rest.codePoints := by
    cases rest <;> rfl
  induction front using codePoints.induct with
  | case1 => exact opening
  | case2 unit =>
    have single : ¬(CodeUnit.isHighSurrogate unit && CodeUnit.isLowSurrogate 0x3C) = true := by
      simp [show CodeUnit.isLowSurrogate 0x3C = false from rfl]
    rw [List.singleton_append, codePoints, codePoints, if_neg single, opening]
    rfl
  | case3 unit next more pair ih =>
    rw [List.cons_append, List.cons_append, codePoints, if_pos pair, ih, codePoints, if_pos pair]
    rfl
  | case4 unit next more notPair ih =>
    rw [List.cons_append, List.cons_append, codePoints, if_neg notPair, codePoints, if_neg notPair,
      ← List.cons_append, ih]
    rfl

theorem lowerCase_append (front rest : Text) :
    (front ++ 0x3C :: rest).lowerCase = front.lowerCase ++ lowerCase (0x3C :: rest) := by
  have opening : codePoints (0x3C :: rest) = 0x3C :: rest.codePoints := codePoints_append [] rest
  rw [lowerCase, codePoints_append, Unicode.lowerPoints_append, List.flatMap_append, lowerCase,
    lowerCase, opening]

end Text
end HtmlFragments
