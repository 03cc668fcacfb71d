import HtmlFragments.Text.Basic

/-! # Suggestions for an unknown option

A long option that is close to a known one is taken for a slip of the keyboard. -/
set_option autoImplicit false

namespace HtmlFragments.Suggestion

def mostEdits : Nat := 3

/-- Whether at most `edits` insertions, deletions, substitutions and swaps of neighbours make one
word of the other, where no unit is edited twice. -/
def isWithin (edits : Nat) : Text → Text → Bool
  | [], other => other.length ≤ edits
  | word, [] => word.length ≤ edits
  | unit :: word, letter :: other =>
    (unit == letter && isWithin edits word other) ||
      match edits with
      | 0 => false
      | fewer + 1 =>
        isWithin fewer word (letter :: other) || isWithin fewer (unit :: word) other ||
          isWithin fewer word other ||
          match word, other with
          | nextUnit :: word, nextLetter :: other =>
            unit == nextLetter && nextUnit == letter && isWithin fewer word other
          | _, _ => false
termination_by word other => word.length + other.length

def distance? (word other : Text) : Option Nat :=
  (List.range (mostEdits + 1)).find? fun edits => isWithin edits word other

/-- The distance to a candidate of which more than two fifths agree with the word. -/
def similarity? (word candidate : Text) : Option Nat :=
  (distance? word candidate).filter fun distance =>
    2 * max word.length candidate.length < 5 * (max word.length candidate.length - distance)

def nearest (word : Text) (candidates : List Text) : List Text :=
  match (candidates.filterMap (similarity? word)).min? with
  | none => []
  | some least => candidates.filter fun candidate => similarity? word candidate == some least

def question (word : Text) (candidates : List Text) : Text :=
  let written := (nearest word candidates).map (Text.ofString "--" ++ ·)
  match written with
  | [] => []
  | [single] => Text.ofString "\n(Did you mean " ++ single ++ Text.ofString "?)"
  | several =>
    Text.ofString "\n(Did you mean one of " ++ Text.join (Text.ofString ", ") several ++
      Text.ofString "?)"

end HtmlFragments.Suggestion
