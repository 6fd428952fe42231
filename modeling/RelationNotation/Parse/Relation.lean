import RelationNotation.Parse.Expression
import RelationNotation.Tree.Relation

/-!
Reading relations, block bodies and includes. A block body may hold relations with block bodies;
each level lies behind a brace, so as many levels as there are tokens ahead are enough.
-/

namespace RelationNotation

def RelationKind.ofToken? : TokenKind → Option RelationKind
  | .shape => some .shape
  | .hold => some .hold
  | .shift => some .shift
  | .flow => some .flow
  | .melt => some .melt
  | _ => none

namespace Parse

def includeFile : Parse IncludeFile := do
  let t ← current
  match t.kind with
  | .quotedString =>
    let _ ← advance
    return .quotedString ⟨t.origin, t.text.tail.dropLast⟩
  | .identifier =>
    let _ ← advance
    return .identifier t.toIdentifier
  | .unicodeString =>
    let _ ← advance
    return .unicodeString ⟨t.origin, t.text⟩
  | _ => refuse .includeFile

/-- Reads `#[`, a file and `]`. -/
def includeBlock : Parse Include := do
  let start ← expect .includeOpen
  let file ← includeFile
  let _ ← expect .rightBracket
  return ⟨← originFrom start, file⟩

def bracedWith (body : Nesting → Parse BlockBody) (n : Nesting) : Parse RightSide := do
  if (← kind) = .rightBrace then return .emptyBlock else return .block (← body n)

/-- Reads the operator and the right side of a relation whose left side is read. -/
def relationWith (body : Nesting → Parse BlockBody) (n : Nesting) (left : Expression) :
    Parse Relation := do
  match RelationKind.ofToken? (← kind) with
  | none => refuse .relationOperator
  | some relation =>
    let _ ← advance
    if (← kind) = .leftBrace then
      let _ ← advance
      let right ← nested n (bracedWith body)
      let close ← expect .rightBrace
      return ⟨relation, ⟨left.origin.span.cover close.span, []⟩, left, right⟩
    else
      let right ← expression n
      return ⟨relation, ⟨left.origin.span.cover right.origin.span, []⟩, left, .expression right⟩

def elementWith (body : Nesting → Parse BlockBody) (n : Nesting) : Parse Element := do
  if (← kind) = .includeOpen then return .inclusion (← includeBlock)
  else
    let left ← expression n
    if (← kind) ∈ TokenKind.relationOperators then return .relation (← relationWith body n left)
    else return .expression left

/-- Reads further elements, each behind a comma, up to a number of them; tells whether a comma
stands behind the last. -/
def furtherElements (element : Parse Element) : Nat → Parse (List Element × Bool)
  | 0 => return ([], false)
  | k + 1 => do
    if ← accept [.comma] then
      if (← kind) = .rightBrace then return ([], true)
      else
        let x ← element
        let (xs, trailingComma) ← furtherElements element k
        return (x :: xs, trailingComma)
    else return ([], false)

def blockBodyWithin : Nat → Nesting → Parse BlockBody
  | 0, _ => refuse .expression
  | k + 1, n => do
    let start ← current
    let first ← elementWith (blockBodyWithin k) n
    let (rest, trailingComma) ←
      furtherElements (elementWith (blockBodyWithin k) n) (← get).remaining
    if (← kind) = .rightBrace then return ⟨← originFrom start, first, rest, trailingComma⟩
    else refuse .commaOrBrace

/-- Reads one element or more, separated by commas, up to a closing brace. -/
def blockBody (n : Nesting) : Parse BlockBody := do
  blockBodyWithin (← get).remaining n

def blockElement (n : Nesting) : Parse Element := elementWith blockBody n

def functionBlock (n : Nesting) : Parse FunctionBlock := do
  if (← kind) = .includeOpen then return .inclusion (← includeBlock)
  else
    let left ← expression n
    return .relation (← relationWith blockBody n left)

end Parse

end RelationNotation
