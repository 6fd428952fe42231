import RelationNotation.Toml.Text

/-!
Reading TOML numbers, dates and times. A date must be one of the calendar; of a time the fraction
may have any number of digits.
-/

namespace RelationNotation

def tomlDigitLimit : Nat := 4300

namespace TomlRead

/-! ### Dates and times -/

/-- A number of two digits within bounds, and the text behind it. -/
def twoDigits? (low high : Nat) : Text → Option (Nat × Text)
  | a :: b :: rest =>
    let n := Text.natOfDigits 10 [a, b]
    if a.isDigit && b.isDigit && low ≤ n && n ≤ high then some (n, rest) else none
  | _ => none

def behind? (c : Char) (read : Text → Option α) : Text → Option α
  | d :: rest => if c = d then read rest else none
  | [] => none

def behindTime? (t : Text) : Option Text := do
  let (_, t) ← twoDigits? 0 23 t
  let (_, t) ← behind? ':' (twoDigits? 0 59) t
  let (_, t) ← behind? ':' (twoDigits? 0 59) t
  match t with
  | '.' :: rest =>
    if (rest.headD ' ').isDigit then some (rest.dropWhile Char.isDigit) else some t
  | _ => some t

def behindOffset? : Text → Option Text
  | c :: rest =>
    if c = 'Z' ∨ c = 'z' then some rest
    else if c = '+' ∨ c = '-' then do
      let (_, t) ← twoDigits? 0 23 rest
      let (_, t) ← behind? ':' (twoDigits? 0 59) t
      return t
    else none
  | [] => none

def dateParts? (t : Text) : Option ((Nat × Nat × Nat) × Text) := do
  let (century, t) ← twoDigits? 0 99 t
  let (year, t) ← twoDigits? 0 99 t
  let (month, t) ← behind? '-' (twoDigits? 1 12) t
  let (day, t) ← behind? '-' (twoDigits? 1 31) t
  return ((century * 100 + year, month, day), t)

def daysInMonth (year month : Nat) : Nat :=
  if month = 2 then
    if year % 4 = 0 ∧ (year % 100 ≠ 0 ∨ year % 400 = 0) then 29 else 28
  else if month ∈ [4, 6, 9, 11] then 30
  else 31

def frontOf (t rest : Text) : Text := t.take (t.length - rest.length)

/-- A date, with a time behind it or without, and the text behind both. -/
def dateOrDateTime? (t : Text) : Option (Except TomlFault Toml × Text) := do
  let ((year, month, day), rest) ← dateParts? t
  let valid := 1 ≤ year ∧ day ≤ daysInMonth year month
  let clock := match rest with
    | c :: cs => if c = 'T' ∨ c = 't' ∨ c = ' ' then behindTime? cs else none
    | [] => none
  match clock with
  | some rest =>
    let rest := (behindOffset? rest).getD rest
    return (if valid then .ok (.dateTime (frontOf t rest)) else .error .malformed, rest)
  | none => return (if valid then .ok (.date (frontOf t rest)) else .error .malformed, rest)

def time? (t : Text) : Option (Toml × Text) :=
  (behindTime? t).map fun rest => (.time (frontOf t rest), rest)

/-! ### Numbers -/

/-- More digits of a number, single underscores between them left out, and the text behind them. -/
def moreDigits (p : Char → Bool) : Text → Text × Text
  | '_' :: c :: cs =>
    if p c then
      let (digits, rest) := moreDigits p cs
      (c :: digits, rest)
    else ([], '_' :: c :: cs)
  | c :: cs =>
    if p c then
      let (digits, rest) := moreDigits p cs
      (c :: digits, rest)
    else ([], c :: cs)
  | [] => ([], [])

def digits? (p : Char → Bool) : Text → Option (Text × Text)
  | [] => none
  | c :: cs =>
    if p c then
      let (digits, rest) := moreDigits p cs
      some (c :: digits, rest)
    else none

def isHexDigit (c : Char) : Bool :=
  c.isDigit || ('a' ≤ c && c ≤ 'f') || ('A' ≤ c && c ≤ 'F')

/-- A whole number of base sixteen, eight or two, and the text behind it. -/
def prefixed? : Text → Option (Toml × Text)
  | '0' :: mark :: t =>
    let read (base : Nat) (p : Char → Bool) : Option (Toml × Text) :=
      (digits? p t).map fun (digits, rest) => (.integer (Text.natOfDigits base digits), rest)
    if mark = 'x' then read 16 isHexDigit
    else if mark = 'o' then read 8 fun c => '0' ≤ c && c ≤ '7'
    else if mark = 'b' then read 2 fun c => c == '0' || c == '1'
    else none
  | _ => none

/-- Whether a number starts below zero, and the text behind its sign. -/
def sign : Text → Bool × Text
  | '-' :: t => (true, t)
  | '+' :: t => (false, t)
  | t => (false, t)

/-- The whole part of a decimal number, without leading zeros, and the text behind it. -/
def wholePart? : Text → Option (Text × Text)
  | '0' :: rest => some (['0'], rest)
  | t => digits? Char.isDigit t

def behindFraction (t : Text) : Text :=
  ((behind? '.' (digits? Char.isDigit) t).map (·.2)).getD t

def behindExponent (t : Text) : Text :=
  match t with
  | c :: cs =>
    if c = 'e' ∨ c = 'E' then ((digits? Char.isDigit (sign cs).2).map (·.2)).getD t else t
  | [] => t

def decimal? (t : Text) : Option (Except TomlFault Toml × Text) := do
  let (negative, unsigned) := sign t
  let (whole, afterWhole) ← wholePart? unsigned
  let rest := behindExponent (behindFraction afterWhole)
  if rest.length < afterWhole.length then return (.ok (.float (frontOf t rest)), rest)
  else if whole.length > tomlDigitLimit then return (.error .longInteger, rest)
  else
    let n : Int := Text.natOfDigits 10 whole
    return (.ok (.integer (if negative then -n else n)), rest)

def special? (t : Text) : Option (Toml × Text) :=
  let word := (sign t).2.take 3
  if word = ['i', 'n', 'f'] ∨ word = ['n', 'a', 'n'] then
    let rest := (sign t).2.drop 3
    some (.float (frontOf t rest), rest)
  else none

def dateOrNumber : TomlRead Toml := do
  let t ← get
  let plain (r : Option (Toml × Text)) := r.map fun (x, rest) => ((.ok x : Except TomlFault Toml), rest)
  match dateOrDateTime? t <|> plain (time? t) <|> plain (prefixed? t) <|> decimal? t <|>
      plain (special? t) with
  | none => fail
  | some (.error fault, _) => throw fault
  | some (.ok x, rest) =>
    set rest
    return x

end TomlRead

end RelationNotation
