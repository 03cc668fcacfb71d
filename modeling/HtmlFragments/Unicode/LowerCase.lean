import HtmlFragments.Text.Basic
import HtmlFragments.Unicode.CaseContext
import HtmlFragments.Unicode.CaseMapping

/-! # Lower case of a text

The full Unicode mapping. A capital sigma at the end of a word becomes the final sigma, and the
dotted capital I becomes two code points; it is the only character whose lower case has another
number of units. -/
set_option autoImplicit false

namespace HtmlFragments.Unicode

def capitalSigma : Nat := 0x3A3
def smallSigma : Nat := 0x3C3
def finalSigma : Nat := 0x3C2
def dottedCapitalI : Nat := 0x130
def combiningDot : Nat := 0x307

def simpleLower (point : Nat) : Nat :=
  if point < 0x80 then
    if 0x41 ≤ point ∧ point ≤ 0x5A then point + 0x20 else point
  else
    match caseRuns.find? fun run => point ≤ run.last with
    | some run => if run.Covers point then (point + run.shift).toNat else point
    | none => point

def casedAhead : List Nat → Bool
  | [] => false
  | point :: rest => if isIgnorable point then casedAhead rest else isCased point

/-- What the code points so far say of a word: whether a letter with case was the last that
counts. -/
def casedBehind (before : Bool) (point : Nat) : Bool :=
  if isIgnorable point then before else isCased point

/-- The lower case of code points, given whether a letter with case stands before them. -/
def lowerPoints (behind : Bool) : List Nat → List Nat
  | [] => []
  | point :: rest =>
    (if point = capitalSigma then
      [if behind && !casedAhead rest then finalSigma else smallSigma]
    else if point = dottedCapitalI then [simpleLower 0x49, combiningDot]
    else [simpleLower point]) ++ lowerPoints (casedBehind behind point) rest

end HtmlFragments.Unicode

namespace HtmlFragments.Text

def lowerCase (text : Text) : Text :=
  (Unicode.lowerPoints false text.codePoints).flatMap encode

def sameUpToCase (left right : Text) : Bool := left.lowerCase == right.lowerCase

end HtmlFragments.Text
