import RelationNotation.Number.Binary64
import RelationNotation.Text.Numeral
import RelationNotation.Tree.Leaf

/-!
The values of numbers: whole numbers as they are, others as the nearest binary floating-point
number.
-/

namespace RelationNotation

/-- The value of a number, that of a number with a point by its bits. -/
inductive NumberValue where
  | whole (n : Nat)
  | binary64 (bits : Nat)
  deriving DecidableEq

def wholeDigitLimit : Nat := 4300

/-- The value of a number; a whole number of too many digits has none. -/
def Number.value? (x : Number) : Option NumberValue :=
  if x.isFloat then
    let digits := x.text.filter Char.isDigit
    let places := (x.text.dropWhile Char.isDigit).length - 1
    some (.binary64 (Binary64.ofDecimal (Text.natOfDigits 10 digits) places))
  else if x.text.length > wholeDigitLimit then none
  else some (.whole (Text.natOfDigits 10 x.text))

end RelationNotation
