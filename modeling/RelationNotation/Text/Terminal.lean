import RelationNotation.Text.Basic

/-!
Terminal sequences: what makes a terminal change colours or move its cursor. Text for a file or a
pipe goes without them.
-/

namespace RelationNotation.Text

def escapeChar : Char := '\x1b'

/-- Whether a character may stand between the bracket and the letter of a terminal sequence. -/
def isParameter (c : Char) : Bool := c.isDigit || c == ';' || c == '?'

/-- How many characters of a terminal sequence follow its escape character, if one stands in front
of the text. -/
def sequenceLength? : Text → Option Nat
  | '[' :: cs =>
    let count := (cs.takeWhile isParameter).length
    match cs.drop count with
    | c :: _ => if c.isAlpha then some (count + 2) else none
    | [] => none
  | _ => none

/-- A text without terminal sequences, given how many of its characters belong to one. -/
def withoutSequencesFrom : Nat → Text → Text
  | _, [] => []
  | k + 1, _ :: cs => withoutSequencesFrom k cs
  | 0, c :: cs =>
    match if c = escapeChar then sequenceLength? cs else none with
    | some k => withoutSequencesFrom k cs
    | none => c :: withoutSequencesFrom 0 cs

def withoutSequences (t : Text) : Text := withoutSequencesFrom 0 t

end RelationNotation.Text
