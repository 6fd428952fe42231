import RelationNotation.Json.Value

/-!
Reading JSON text. Of two members of one name the last counts, so it alone is kept. A character
outside the basic plane may be escaped as a pair of surrogates; a surrogate alone is no character.
A reader that goes down a limited number of levels refuses a text with more.
-/

namespace RelationNotation.Json

def isSpace (c : Char) : Bool := c == ' ' || c == '\t' || c == '\n' || c == '\r'

def skipSpace (t : Text) : Text := t.dropWhile isSpace

def skip? (s t : Text) : Option Text := if s.isPrefixOf t then some (t.drop s.length) else none

/-! ### Strings -/

def isHexDigit (c : Char) : Bool :=
  c.isDigit || ('a' ≤ c && c ≤ 'f') || ('A' ≤ c && c ≤ 'F')

/-- The code that four hexadecimal digits write, and the text behind them. -/
def readCode? (t : Text) : Option (Nat × Text) :=
  let digits := t.take 4
  if digits.length = 4 ∧ digits.all isHexDigit then
    some (Text.natOfDigits 16 digits, t.drop 4)
  else none

def charOfCode? (n : Nat) : Option Char :=
  if h : n.isValidChar then some (Char.ofNatAux n h) else none

def readCodeEscape? (t : Text) : Option (Char × Text) := do
  let (high, rest) ← readCode? t
  if 0xD800 ≤ high ∧ high < 0xDC00 then
    let (low, rest) ← readCode? (← skip? ['\\', 'u'] rest)
    if 0xDC00 ≤ low ∧ low < 0xE000 then
      let c ← charOfCode? (0x10000 + (high - 0xD800) * 0x400 + (low - 0xDC00))
      return (c, rest)
    else none
  else
    let c ← charOfCode? high
    return (c, rest)

/-- The character of an escape, given what stands behind its backslash, and the text behind it. -/
def readEscape? : Text → Option (Char × Text)
  | '"' :: cs => some ('"', cs)
  | '\\' :: cs => some ('\\', cs)
  | '/' :: cs => some ('/', cs)
  | 'b' :: cs => some ('\x08', cs)
  | 'f' :: cs => some ('\x0c', cs)
  | 'n' :: cs => some ('\n', cs)
  | 'r' :: cs => some ('\r', cs)
  | 't' :: cs => some ('\t', cs)
  | 'u' :: cs => readCodeEscape? cs
  | _ => none

def isPlain (c : Char) : Bool := c != '"' && c != '\\' && 0x20 ≤ c.toNat

/-- A string and the text behind it, given a bound on its escapes and the text behind its opening
quote. -/
def readString? : Nat → Text → Option (Text × Text)
  | 0, _ => none
  | k + 1, t =>
    let plain := t.takeWhile isPlain
    match t.dropWhile isPlain with
    | '"' :: cs => some (plain, cs)
    | '\\' :: cs => do
      let (c, rest) ← readEscape? cs
      let (body, rest) ← readString? k rest
      return (plain ++ c :: body, rest)
    | _ => none

/-! ### Numbers -/

def readDigits? (t : Text) : Option (Text × Text) :=
  match t.takeWhile Char.isDigit with
  | [] => none
  | digits => some (digits, t.dropWhile Char.isDigit)

/-- The digits behind a point, if there is one, and the text behind them. -/
def readFraction? : Text → Option (Option Text × Text)
  | '.' :: cs => (readDigits? cs).map fun (digits, rest) => (some digits, rest)
  | t => some (none, t)

def readSigned? : Text → Option (Int × Text)
  | '-' :: cs => (readDigits? cs).map fun (digits, rest) => (-Text.natOfDigits 10 digits, rest)
  | '+' :: cs => (readDigits? cs).map fun (digits, rest) => (Text.natOfDigits 10 digits, rest)
  | t => (readDigits? t).map fun (digits, rest) => (Text.natOfDigits 10 digits, rest)

def readExponent? : Text → Option (Option Int × Text)
  | c :: cs =>
    if c = 'e' ∨ c = 'E' then (readSigned? cs).map fun (n, rest) => (some n, rest)
    else some (none, c :: cs)
  | [] => some (none, [])

/-- A number without a sign, and the text behind it; only zero starts with a zero. -/
def readUnsigned? (negative : Bool) (t : Text) : Option (Json × Text) := do
  let (whole, rest) ← readDigits? t
  if whole.head? = some '0' ∧ whole ≠ ['0'] then none
  else
    let (fraction, rest) ← readFraction? rest
    let (exponent, rest) ← readExponent? rest
    let signed (digits : Text) : Int :=
      if negative then -Text.natOfDigits 10 digits else Text.natOfDigits 10 digits
    let places := fraction.getD []
    if fraction.isNone && exponent.isNone then return (.int (signed whole), rest)
    else return (.decimal (signed (whole ++ places)) (exponent.getD 0 - places.length), rest)

def readNumber? : Text → Option (Json × Text)
  | '-' :: cs => readUnsigned? true cs
  | t => readUnsigned? false t

/-! ### Values -/

/-- Members in front of others; a member that another of its name follows is left out. -/
def consMember (m : String × Json) (ms : List (String × Json)) : List (String × Json) :=
  if ms.any (·.1 == m.1) then ms else m :: ms

mutual

/-- A value and the text behind it, given a bound on its parts and how many levels it may have. An
array or object is a level if there is anything in it. -/
def readValue? : Nat → Nat → Text → Option (Json × Text)
  | 0, _, _ => none
  | k + 1, levels, t =>
    match skipSpace t with
    | '"' :: cs => (readString? k cs).map fun (s, rest) => (.string s, rest)
    | '[' :: cs =>
      match skipSpace cs with
      | ']' :: rest => some (.array [], rest)
      | _ =>
        match levels with
        | 0 => none
        | l + 1 => (readItems? k l cs).map fun (items, rest) => (.array items, rest)
    | '{' :: cs =>
      match skipSpace cs with
      | '}' :: rest => some (.object [], rest)
      | _ =>
        match levels with
        | 0 => none
        | l + 1 => (readMembers? k l cs).map fun (members, rest) => (.object members, rest)
    | 'n' :: cs => (skip? ['u', 'l', 'l'] cs).map fun rest => (.null, rest)
    | 't' :: cs => (skip? ['r', 'u', 'e'] cs).map fun rest => (.bool true, rest)
    | 'f' :: cs => (skip? ['a', 'l', 's', 'e'] cs).map fun rest => (.bool false, rest)
    | cs => readNumber? cs

/-- The items of an array, one at least, and the text behind its bracket. -/
def readItems? : Nat → Nat → Text → Option (List Json × Text)
  | 0, _, _ => none
  | k + 1, levels, t => do
    let (x, rest) ← readValue? k levels t
    match skipSpace rest with
    | ',' :: rest =>
      let (xs, rest) ← readItems? k levels rest
      return (x :: xs, rest)
    | ']' :: rest => return ([x], rest)
    | _ => none

/-- The members of an object, one at least, and the text behind its bracket. -/
def readMembers? : Nat → Nat → Text → Option (List (String × Json) × Text)
  | 0, _, _ => none
  | k + 1, levels, t => do
    let (name, rest) ← readString? k (← skip? ['"'] (skipSpace t))
    let (x, rest) ← readValue? k levels (← skip? [':'] (skipSpace rest))
    let m := (String.ofList name, x)
    match skipSpace rest with
    | ',' :: rest =>
      let (ms, rest) ← readMembers? k levels rest
      return (consMember m ms, rest)
    | '}' :: rest => return ([m], rest)
    | _ => none

end

/-- The value that a text writes, if it has no more than some levels. Every part of it, an escape in
a string included, is one character or more, so the length of the text is bound enough. -/
def ofTextWithin? (levels : Nat) (t : Text) : Option Json :=
  match readValue? (t.length + 1) levels t with
  | some (j, rest) => if (skipSpace rest).isEmpty then some j else none
  | none => none

/-- The value that a text writes. A text has no more levels than characters. -/
def ofText? (t : Text) : Option Json := ofTextWithin? t.length t

end RelationNotation.Json
