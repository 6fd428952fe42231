/-!
Binary floating-point numbers of 64 bits, as bit patterns: the number nearest to a decimal, and the
whole number that a pattern stands for. Of two nearest numbers the one with an even significand is
taken, and what is too large becomes infinity.
-/

namespace RelationNotation.Binary64

/-- The significand of the smallest normal number in units of the last place. -/
def hiddenBit : Nat := 1 <<< 52

/-- The bits of infinity; every smaller pattern is a finite number. -/
def infinity : Nat := 2047 * hiddenBit

/-- A quotient rounded to the nearest whole number, a half to the even neighbour. -/
def roundDiv (num den : Nat) : Nat :=
  let q := num / den
  let r := num % den
  if 2 * r < den then q else if 2 * r > den then q + 1 else if q % 2 = 0 then q else q + 1

/-- The exponent of the unit in which a positive quotient has 53 bits, or that of the smallest unit
there is. -/
def unitExponent (num den : Nat) : Int :=
  let e : Int := (num.log2 : Int) - den.log2 - 52
  let short := num <<< (-e).toNat < hiddenBit * (den <<< e.toNat)
  max (if short then e - 1 else e) (-1074)

/-- The bits of the number nearest to a quotient of natural numbers. -/
def ofQuotient (num den : Nat) : Nat :=
  if num = 0 then 0
  else
    let e := unitExponent num den
    let significand := roundDiv (num <<< (-e).toNat) (den <<< e.toNat)
    -- a significand of 54 bits carries into the exponent, as it should
    let bits := (e + 1074).toNat * hiddenBit + significand
    min bits infinity

/-- The bits of the number nearest to a decimal of digits and so many places behind the point. -/
def ofDecimal (digits places : Nat) : Nat := ofQuotient digits (Nat.pow 10 places)

/-- The bits of the number nearest to digits scaled by a power of ten. Numbers from ten to the power
of 310 on are infinite and those below ten to the power of -330 are nearest to zero, so no greater
powers are formed. -/
def ofScaled (digits : Nat) (exponent : Int) : Nat :=
  let magnitude := (toString digits).length + exponent
  if digits = 0 then 0
  else if magnitude > 310 then infinity
  else if magnitude < -330 then 0
  else ofQuotient (digits * Nat.pow 10 exponent.toNat) (Nat.pow 10 (-exponent).toNat)

/-- The whole number that the bits of a finite number stand for, if they stand for one. -/
def whole? (bits : Nat) : Option Nat :=
  let significand := if bits < hiddenBit then bits else hiddenBit + bits % hiddenBit
  -- the power of two that the last place counts, from -1074 on
  let place : Int := (max (bits / hiddenBit) 1 : Nat) - 1075
  let unit := 1 <<< (-place).toNat
  if significand % unit = 0 then some ((significand / unit) <<< place.toNat) else none

end RelationNotation.Binary64
