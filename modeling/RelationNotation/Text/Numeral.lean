import RelationNotation.Text.Basic

/-!
Numerals: reading digits of a base, and writing numbers flush right.
-/

namespace RelationNotation.Text

def digitValue (c : Char) : Nat :=
  if c.isDigit then c.toNat - 0x30
  else if c.isLower then c.toNat - 0x61 + 10
  else if c.isUpper then c.toNat - 0x41 + 10
  else 0

def natOfDigits (base : Nat) (digits : Text) : Nat :=
  digits.foldl (fun n c => n * base + digitValue c) 0

def ofInt (n : Int) : Text := (toString n).toList

/-- A text with blanks in front, so that it has a width at least. -/
def flushRight (width : Nat) (t : Text) : Text := List.replicate (width - t.length) ' ' ++ t

end RelationNotation.Text
