import RelationNotation.Parse.Cursor
import RelationNotation.Tree.Expression

/-!
Reading expressions. A gac string may hold gac strings; each level of nesting lies behind a bracket,
so as many levels as there are tokens ahead are enough, and `gacStringWithin` takes that number.
With no token left it fails as any reading of a gac string does at the end of the input.
-/

namespace RelationNotation

namespace Token

def origin (t : Token) : Origin := ⟨t.span, []⟩

def toIdentifier (t : Token) : Identifier := ⟨t.origin, t.text⟩

def toOperator (t : Token) : Operator := ⟨t.origin, t.text⟩

def toNumber (t : Token) : Number := ⟨t.origin, t.text, t.kind == .float⟩

def toPointerTerm (t : Token) : PointerTerm :=
  if t.kind ∈ TokenKind.numbers then .number t.toNumber
  else if t.kind ∈ TokenKind.bareOperators then .operator t.toOperator
  else .arithmeticOp ⟨t.origin, t.text⟩

end Token

def PrefixMarker.ofKind? : TokenKind → Option PrefixMarker
  | .equals => some .equals
  | .prefixMark => some .arrow
  | _ => none

def SuffixMarker.ofKind? : TokenKind → Option SuffixMarker
  | .minus => some .minus
  | .plus => some .plus
  | _ => none

namespace Parse

def string : Parse StringValue := do
  let t ← current
  match t.kind with
  | .identifier =>
    let _ ← advance
    return .identifier t.toIdentifier
  | .unicodeString =>
    let _ ← advance
    return .unicodeString ⟨t.origin, t.text⟩
  | _ => refuse .string

def typeDesc : Parse TypeDesc := do
  let start ← expect .quote
  let description ← string
  let _ ← expect .quote
  return ⟨← originFrom start, description⟩

/-- Reads `#(`, a string and `)`. -/
def fycoide : Parse Fycoide := do
  let start ← expect .fycoideOpen
  let name ← string
  let _ ← expect .rightParen
  return ⟨← originFrom start, name⟩

/-- Steps over tokens as long as their kinds are among the given ones, and returns them. -/
def takeKinds (kinds : List TokenKind) : Parse (List Token) := fun c =>
  let taken := c.ahead.takeWhile fun t => decide (t.kind ∈ kinds)
  let left := c.ahead.dropWhile fun t => decide (t.kind ∈ kinds)
  .ok taken ⟨taken.reverse ++ c.before, left, c.stop⟩

def pointerExpression : Parse PointerExpression := do
  let start ← expect .leftBracket
  match ← takeKinds TokenKind.pointerTerms with
  | [] => refuse .pointerTerm
  | first :: rest =>
    let _ ← expect .rightBracket
    return ⟨← originFrom start, first.toPointerTerm, rest.map Token.toPointerTerm⟩

def pointerId : Parse PointerId := do
  let k ← kind
  if k ∈ TokenKind.numbers then return .number (← advance).toNumber
  else if k = .leftBracket then return .expression (← pointerExpression)
  else refuse .pointerTarget

/-- Reads `@` and a target behind a gac word. -/
def pointer : Parse Pointer := do
  let start ← expect .atSign
  let id ← pointerId
  return ⟨← originFrom start, id⟩

/-- Reads `@` and a target. -/
def pointerRef : Parse PointerRef := do
  let start ← expect .atSign
  let id ← pointerId
  return ⟨← originFrom start, id⟩

/-- Reads one gac stem, the longest there is: a name takes a marker that touches it, and a sign a
name that touches it. What stands between brackets is read by the given routine. -/
def gacStemWith (inner : Nesting → Parse GacString) (n : Nesting) : Parse GacStem := do
  let t ← current
  let next := (← get).following
  match t.kind with
  | .fycoideOpen => return .fycoide (← fycoide)
  | .atSign => return .pointerRef (← pointerRef)
  | .identifier =>
    let _ ← advance
    match PrefixMarker.ofKind? next.kind, t.touches next with
    | some marker, true =>
      let _ ← advance
      return .front ⟨← originFrom t, t.toIdentifier, marker⟩
    | _, _ => return .identifier t.toIdentifier
  | .synonym =>
    let _ ← advance
    let name ← expect .identifier
    return .synonym ⟨← originFrom t, name.toIdentifier⟩
  | .leftBracket =>
    let _ ← advance
    let content ← nested n inner
    let _ ← expect .rightBracket
    return .nested ⟨← originFrom t, content⟩
  | k =>
    match SuffixMarker.ofKind? k with
    | some marker =>
      let _ ← advance
      if next.kind = .identifier ∧ t.touches next then
        let _ ← advance
        return .ending ⟨← originFrom t, marker, next.toIdentifier⟩
      else return .operator t.toOperator
    | none =>
      if k ∈ TokenKind.bareOperators then
        let _ ← advance
        return .operator t.toOperator
      else refuse .gacStem

/-- Reads items as long as a token of one of the kinds stands at the cursor, up to a number of
items. -/
def manyWithin (kinds : List TokenKind) (item : Parse α) : Nat → Parse (List α)
  | 0 => return []
  | k + 1 => do
    if (← kind) ∈ kinds then
      let x ← item
      return x :: (← manyWithin kinds item k)
    else return []

/-- Reads items as long as a token of one of the kinds stands at the cursor. -/
def many (kinds : List TokenKind) (item : Parse α) : Parse (List α) := do
  manyWithin kinds item (← get).remaining

def gacStringWithin : Nat → Nesting → Parse GacString
  | 0, _ => refuse .gacStem
  | k + 1, n => do
    let start ← current
    match ← many TokenKind.gacStemStarts (gacStemWith (gacStringWithin k) n) with
    | [] => refuse .gacStem
    | first :: rest => return ⟨← originFrom start, first, rest⟩

def gacString (n : Nesting) : Parse GacString := do
  gacStringWithin (← get).remaining n

def gacStem (n : Nesting) : Parse GacStem := gacStemWith gacString n

/-- Reads a gac string between brackets and, if `@` follows, a pointer. -/
def typeWord (n : Nesting) : Parse Expression := do
  let start ← current
  let proto ← accept [.protoOpen]
  unless proto do
    let _ ← expect .leftBracket
  let content ← nested n gacString
  let _ ← expect .rightBracket
  let target ← if (← kind) = .atSign then some <$> pointer else pure none
  let origin ← originFrom start
  return if proto then .protoGacWord ⟨origin, content, target⟩
    else .stdGacWord ⟨origin, content, target⟩

def expression (n : Nesting) : Parse Expression := do
  match ← kind with
  | .quote => return .typeDesc (← typeDesc)
  | .leftBracket | .protoOpen => typeWord n
  | .fycoideOpen => return .fycoide (← fycoide)
  | .atSign => return .pointerRef (← pointerRef)
  | _ => refuse .expression

end Parse

end RelationNotation
