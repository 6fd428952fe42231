import RelationNotation.Json.Issue
import RelationNotation.Number.Binary64
import RelationNotation.Text.Blank
import RelationNotation.Text.Numeral

/-!
Whole numbers from strings and decimals. A string may have white space around the number, a plus
sign, zeros in front, underscores between its digits, and zeros behind a point. A decimal counts as
the binary floating-point number nearest to it.
-/

namespace RelationNotation.Json

/-- Two to the power of 63: whole numbers of 64 bits lie below it, and from its negative on. -/
def intBound : Int := (1 <<< 63 : Nat)

/-- The most digits a whole number may have; a minus sign before them does not count. -/
def intDigitLimit : Nat := 4300

/-! ### Strings -/

def trim (t : Text) : Text := ((t.dropWhile isWhiteSpace).reverse.dropWhile isWhiteSpace).reverse

/-- Whether a minus sign stands in front, and the text behind it. -/
def splitMinus : Text → Bool × Text
  | '-' :: cs => (true, cs)
  | cs => (false, cs)

def withMinus (negative : Bool) (t : Text) : Text := if negative then '-' :: t else t

def withoutPlus : Text → Option Text
  | '+' :: '-' :: _ => none
  | '+' :: cs => some cs
  | cs => some cs

/-- What is left of a number behind zeros and underscores, given the last of these; the last one is
kept if no other digit follows. A minus sign may follow them, and is kept too. -/
def afterZeros (last : Char) : Text → Option Text
  | [] => some [last]
  | c :: cs =>
    if c = '0' ∨ c = '_' then afterZeros c cs
    else if c.isDigit ∨ c = '-' then some (c :: cs)
    else if c = '.' then some (last :: c :: cs)
    else none

/-- A number without zeros in front; it must start with a digit. -/
def withoutLeadingZeros : Text → Option Text
  | [] => none
  | c :: cs =>
    if c = '0' then afterZeros c cs
    else if c.isDigit then some (c :: cs)
    else none

/-- A number without a point and the zeros behind it, of which there must be one at least. -/
def withoutZeroFraction (t : Text) : Text :=
  match t.dropWhile (· != '.') with
  | '.' :: '0' :: zeros => if zeros.all (· == '0') then t.takeWhile (· != '.') else t
  | _ => t

def hasDoubleUnderscore : Text → Bool
  | '_' :: '_' :: _ => true
  | _ :: cs => hasDoubleUnderscore cs
  | [] => false

/-- A number without the underscores between its digits, if each stands alone. -/
def withoutUnderscores (t : Text) : Text :=
  if t.head? = some '_' ∨ t.getLast? = some '_' ∨ hasDoubleUnderscore t then t
  else t.filter (· != '_')

/-- The plain form of a number: digits, a minus sign before them or not. What is no number may have
a plain form too, but none that `plainInt?` reads. -/
def plainForm? (t : Text) : Option Text := do
  let (negative, digits) := splitMinus (← withoutPlus (trim t))
  let digits ← withoutLeadingZeros digits
  return withMinus negative (withoutUnderscores (withoutZeroFraction digits))

/-- The number that digits write, if they are not too many, a minus sign before them or not; only
zero starts with a zero. -/
def plainInt? (t : Text) : Option Int :=
  let (negative, digits) := splitMinus t
  if digits ≠ [] ∧ digits.all Char.isDigit ∧ (digits.head? = some '0' → digits = ['0']) ∧
      digits.length ≤ intDigitLimit then
    let n : Int := Text.natOfDigits 10 digits
    some (if negative then -n else n)
  else none

/-- Whether a text starts with a number in plain form that has too many digits. -/
def startsTooLong (t : Text) : Bool :=
  let digits := (splitMinus t).2.takeWhile Char.isDigit
  digits.head? != some '0' && digits.length > intDigitLimit

def intOfText (t : Text) : Except IssueKind Int :=
  if startsTooLong t then .error .integerSize
  else
    match plainForm? t >>= plainInt? with
    | some n => .ok n
    | none => .error .integerText

/-! ### Decimals -/

def intOfDecimal (digits exponent : Int) : Except IssueKind Int :=
  let bits := Binary64.ofScaled digits.natAbs exponent
  if bits = Binary64.infinity then .error .infinite
  else
    match Binary64.whole? bits with
    | none => .error .fraction
    | some n =>
      if n < intBound then .ok (if digits < 0 then -n else n) else .error .integerSize

end RelationNotation.Json
