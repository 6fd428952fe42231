import RelationNotation.Path.Basic

/-!
Patterns for names: `*` stands for any text, `?` for any character, and brackets for any of the
characters or ranges in them, or for any other behind `!`. A bracket that is never closed stands for
itself.
-/

namespace RelationNotation

/-- The characters that brackets stand for: pieces of text, each with a range from its last
character to the first one of the next piece. -/
structure CharClass where
  negated : Bool
  pieces : List Text
  deriving DecidableEq

/-- A part of a pattern. -/
inductive PatternPart where
  | anyText
  | anyChar
  | char (c : Char)
  | oneOf (s : CharClass)
  deriving DecidableEq

namespace CharClass

/-- Whether a character is in a range between two pieces next to each other. -/
def inRanges (c : Char) : List Text → Bool
  | s :: t :: ts =>
    (match s.getLast?, t.head? with
      | some low, some high => low ≤ c && c ≤ high
      | _, _ => false) || inRanges c (t :: ts)
  | _ => false

def contains (s : CharClass) (c : Char) : Bool :=
  (s.pieces.any (·.contains c) || inRanges c s.pieces) != s.negated

/-- Cuts the text in brackets at the hyphens that make ranges. A hyphen does so if a character
stands before it that ends no range; `held` counts the characters that must pass before the next
hyphen may. -/
def cut (held : Nat) (piece : Text) : Text → List Text
  | [] => [piece.reverse]
  | c :: cs =>
    if c = '-' ∧ held = 0 then piece.reverse :: cut 2 [] cs
    else cut (held - 1) (c :: piece) cs

def keepLastHyphen : List Text → List Text
  | [s, []] => [s ++ ['-']]
  | s :: ss => s :: keepLastHyphen ss
  | [] => []

/-- Joins pieces whose range would be empty, from the last one back, without the range's ends. -/
def dropEmptyRanges : List Text → List Text
  | [] => []
  | s :: ss =>
    match dropEmptyRanges ss with
    | [] => [s]
    | t :: ts =>
      match s.getLast?, t.head? with
      | some low, some high => if high < low then (s.dropLast ++ t.tail) :: ts else s :: t :: ts
      | _, _ => s :: t :: ts

def ofText (t : Text) : CharClass :=
  let held := if t.head? = some '!' then 2 else 1
  let pieces := dropEmptyRanges (keepLastHyphen (cut held [] t))
  match pieces with
  | ('!' :: s) :: ss => ⟨true, s :: ss⟩
  | ss => ⟨false, ss⟩

end CharClass

abbrev Pattern := List PatternPart

namespace Pattern

/-- The text in brackets and the text behind them, given the text behind the opening bracket. A
bracket that closes at once, also behind `!`, is one of the characters. -/
def brackets? (t : Text) : Option (Text × Text) :=
  let start := if t.head? = some '!' then 1 else 0
  let start := if (t.drop start).head? = some ']' then start + 1 else start
  let body := (t.drop start).takeWhile (· != ']')
  match (t.drop start).dropWhile (· != ']') with
  | [] => none
  | _ :: rest => some (t.take start ++ body, rest)

def ofTextWithin : Nat → Text → Pattern
  | 0, _ => []
  | _, [] => []
  | k + 1, c :: cs =>
    if c = '*' then .anyText :: ofTextWithin k cs
    else if c = '?' then .anyChar :: ofTextWithin k cs
    else if c = '[' then
      match brackets? cs with
      | some (body, rest) => .oneOf (.ofText body) :: ofTextWithin k rest
      | none => .char c :: ofTextWithin k cs
    else .char c :: ofTextWithin k cs

def ofText (t : Text) : Pattern := ofTextWithin t.length t

/-- Whether a name, or any text before a number of its last characters, is matched. -/
def matchesAnySuffix (p : Text → Bool) : Text → Bool
  | [] => p []
  | c :: cs => p (c :: cs) || matchesAnySuffix p cs

def isMatch : Pattern → Text → Bool
  | [], t => t.isEmpty
  | .anyText :: ps, t => matchesAnySuffix (isMatch ps) t
  | .anyChar :: ps, _ :: cs => isMatch ps cs
  | .char c :: ps, d :: cs => c == d && isMatch ps cs
  | .oneOf s :: ps, c :: cs => s.contains c && isMatch ps cs
  | _, [] => false

def isWild (t : Text) : Bool := t.any fun c => c == '*' || c == '?' || c == '['

theorem isMatch_chars (s t : Text) : isMatch (s.map .char) t = (s == t) := by
  induction s generalizing t with
  | nil => cases t <;> simp [isMatch]
  | cons c s ih => cases t <;> simp [isMatch, ih]

theorem matchesAnySuffix_eq_true {p : Text → Bool} {t : Text} :
    matchesAnySuffix p t = true ↔ ∃ s, s <:+ t ∧ p s = true := by
  induction t with
  | nil => simp [matchesAnySuffix]
  | cons c cs ih =>
    simp only [matchesAnySuffix, Bool.or_eq_true, ih, List.suffix_cons_iff]
    constructor
    · rintro (h | ⟨s, hs, h⟩)
      · exact ⟨_, .inl rfl, h⟩
      · exact ⟨s, .inr hs, h⟩
    · rintro ⟨s, rfl | hs, h⟩
      · exact .inl h
      · exact .inr ⟨s, hs, h⟩

/-- A star before literal text matches the names that end in the text. -/
theorem isMatch_star_chars (s t : Text) : isMatch (.anyText :: s.map .char) t = true ↔ s <:+ t := by
  rw [isMatch, matchesAnySuffix_eq_true]
  constructor
  · rintro ⟨u, hu, h⟩
    rw [isMatch_chars, beq_iff_eq] at h
    exact h ▸ hu
  · exact fun h => ⟨s, h, by rw [isMatch_chars, beq_iff_eq]⟩

end Pattern

end RelationNotation
