import RelationNotation.Text.Numeral
import RelationNotation.Toml.Value

/-!
Reading the small parts of TOML: blanks, comments, strings and keys. A string holds no control
characters but tabs, and newlines where it may span lines.
-/

namespace RelationNotation

abbrev TomlRead := StateT Text (Except TomlFault)

namespace TomlRead

def fail : TomlRead α := throw .malformed

def isSpace (c : Char) : Bool := c == ' ' || c == '\t'

def isSpaceOrNewline (c : Char) : Bool := isSpace c || c == '\n'

def isControl (c : Char) : Bool := (c.toNat < 0x20 && c != '\t') || c.toNat == 0x7F

def isForbidden (multiline : Bool) (c : Char) : Bool := isControl c && !(multiline && c == '\n')

def isBareKeyChar (c : Char) : Bool := c.isAlphanum || c == '-' || c == '_'

def peek? : TomlRead (Option Char) := return (← get).head?

/-- Steps over characters as long as they satisfy a test, and returns them. -/
def takeWhile (p : Char → Bool) : TomlRead Text := do
  let t ← get
  set (t.dropWhile p)
  return t.takeWhile p

def skipSpaces : TomlRead Unit := do
  let _ ← takeWhile isSpace

def accept (s : Text) : TomlRead Bool := do
  let t ← get
  if s.isPrefixOf t then
    set (t.drop s.length)
    return true
  else return false

def expect (s : Text) : TomlRead Unit := do
  unless ← accept s do fail

def skipComment : TomlRead Unit := do
  if ← accept ['#'] then
    let comment ← takeWhile (· != '\n')
    if comment.any isControl then fail

def behindLayout (inComment : Bool) : Text → Except TomlFault Text
  | [] => .ok []
  | c :: cs =>
    if inComment then
      if c = '\n' then behindLayout false cs
      else if isControl c then .error .malformed
      else behindLayout true cs
    else if isSpaceOrNewline c then behindLayout false cs
    else if c = '#' then behindLayout true cs
    else .ok (c :: cs)

def skipLayout : TomlRead Unit := do
  set (← behindLayout false (← get))

/-! ### Strings -/

def escapedChar (digits : Nat) : TomlRead Text := do
  let t ← get
  let code := t.take digits
  let n := Text.natOfDigits 16 code
  if h : code.length = digits ∧ code.all (fun c => c.isDigit || ('a' ≤ c ∧ c ≤ 'f') ||
      ('A' ≤ c ∧ c ≤ 'F')) ∧ n.isValidChar then
    set (t.drop digits)
    return [Char.ofNatAux n h.2.2]
  else fail

/-- Steps over a line end behind a backslash, and all blanks and newlines behind it. -/
def joinLines : TomlRead Text := do
  skipSpaces
  if (← get).isEmpty then return []
  expect ['\n']
  let _ ← takeWhile isSpaceOrNewline
  return []

def escape (multiline : Bool) : TomlRead Text := do
  match ← get with
  | 'b' :: rest => set rest; return ['\x08']
  | 't' :: rest => set rest; return ['\t']
  | 'n' :: rest => set rest; return ['\n']
  | 'f' :: rest => set rest; return ['\x0c']
  | 'r' :: rest => set rest; return ['\r']
  | '"' :: rest => set rest; return ['"']
  | '\\' :: rest => set rest; return ['\\']
  | 'u' :: rest => set rest; escapedChar 4
  | 'U' :: rest => set rest; escapedChar 8
  | c :: _ => if multiline && isSpaceOrNewline c then joinLines else fail
  | [] => fail

/-- Reads the rest of a string with escapes, closing quotes included, given a bound on its
length. -/
def basicRest (multiline : Bool) : Nat → TomlRead Text
  | 0 => fail
  | k + 1 => do
    match ← get with
    | [] => fail
    | '"' :: rest =>
      set rest
      if multiline then
        if ← accept ['"', '"'] then return []
        else return '"' :: (← basicRest multiline k)
      else return []
    | '\\' :: rest =>
      set rest
      let escaped ← escape multiline
      return escaped ++ (← basicRest multiline k)
    | c :: rest =>
      if isForbidden multiline c then fail
      else
        set rest
        return c :: (← basicRest multiline k)

def basic (multiline : Bool) : TomlRead Text := do
  basicRest multiline ((← get).length + 1)

def literal : TomlRead Text := do
  let body ← takeWhile (· != '\x27')
  expect ['\x27']
  if body.any isControl then fail else return body

/-- The text before three single quotes, and the text behind them. -/
def splitAtQuotes : Text → Option (Text × Text)
  | '\x27' :: '\x27' :: '\x27' :: rest => some ([], rest)
  | c :: cs => (splitAtQuotes cs).map fun s => (c :: s.1, s.2)
  | [] => none

/-- Reads the rest of a string without escapes that may span lines. -/
def literalLines : TomlRead Text := do
  match splitAtQuotes (← get) with
  | none => fail
  | some (body, rest) =>
    if body.any (isForbidden true) then fail
    else
      set rest
      return body

/-- Reads up to two more quotes, which belong to the string that they close. -/
def closingQuotes (quote : Char) : TomlRead Text := do
  if ← accept [quote, quote] then return [quote, quote]
  else if ← accept [quote] then return [quote]
  else return []

/-- Reads a string that may span lines, behind its opening quotes. -/
def lines (quote : Char) : TomlRead Text := do
  let _ ← accept ['\n']
  let body ← if quote = '"' then basic true else literalLines
  return body ++ (← closingQuotes quote)

/-! ### Keys -/

def keyPart : TomlRead Text := do
  if ← accept ['\x27'] then literal
  else if ← accept ['"'] then basic false
  else
    let part ← takeWhile isBareKeyChar
    if part.isEmpty then fail else return part

/-- Reads further parts of a key, each behind a point, given a bound on their number. -/
def keyRest : Nat → TomlRead (List Text)
  | 0 => return []
  | k + 1 => do
    skipSpaces
    if ← accept ['.'] then
      skipSpaces
      let part ← keyPart
      return part :: (← keyRest k)
    else return []

def key : TomlRead (List Text) := do
  let first ← keyPart
  let rest ← keyRest ((← get).length + 1)
  return first :: rest

end TomlRead

end RelationNotation
