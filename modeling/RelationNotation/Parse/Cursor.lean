import RelationNotation.Parse.Fault
import RelationNotation.Tree.Origin

/-!
A cursor over the structural tokens of a text. The end of the input is no token to step over: a
cursor that stands there stays there. A `Parse` reads tokens at a cursor and either returns a value
or fails; either way it says where the cursor then stands.
-/

namespace RelationNotation

/-- A place among tokens: those before it, last one first, those from it on, and the token at the
end of the input. -/
structure Cursor where
  before : List Token
  ahead : List Token
  stop : Token

namespace Cursor

/-- The cursor at the first of several tokens, the last of which is the end of the input. -/
def ofTokens (ts : List Token) : Cursor := ⟨[], ts.dropLast, ts.getLastD default⟩

def tokens (c : Cursor) : List Token := c.before.reverse ++ c.ahead ++ [c.stop]

def index (c : Cursor) : Nat := c.before.length

/-- How many tokens lie ahead of the cursor, the end of the input not counted. -/
def remaining (c : Cursor) : Nat := c.ahead.length

def current (c : Cursor) : Token := c.ahead.headD c.stop

def kind (c : Cursor) : TokenKind := c.current.kind

def following (c : Cursor) : Token := c.ahead.tail.headD c.stop

/-- The token some places away from the cursor; beyond the end it is the end of the input, and
places before the first count back from the end. -/
def peek (c : Cursor) (away : Int) : Token :=
  let n : Int := c.tokens.length
  let i : Int := c.index + away
  c.tokens.getD (if i < 0 then n + i else i).toNat c.stop

def previous (c : Cursor) : Token := c.before.headD c.current

def advance (c : Cursor) : Cursor :=
  match c.ahead with
  | [] => c
  | t :: ts => ⟨t :: c.before, ts, c.stop⟩

/-- The span from the start of a token to the end of the last token passed. -/
def spanFrom (c : Cursor) (t : Token) : Span := t.spanTo c.previous

theorem remaining_advance (c : Cursor) : c.advance.remaining = c.remaining - 1 := by
  unfold advance
  split <;> simp_all [remaining]

end Cursor

abbrev Parse := EStateM SyntaxFault Cursor

namespace Parse

def current : Parse Token := return (← get).current

def kind : Parse TokenKind := return (← get).kind

def advance : Parse Token := do
  let t ← current
  modify Cursor.advance
  return t

def refuse (d : Demand) : Parse α := do throw ⟨d, ← current⟩

/-- Steps over a token of one of the kinds, if one stands at the cursor. -/
def accept (kinds : List TokenKind) : Parse Bool := do
  if (← kind) ∈ kinds then
    let _ ← advance
    return true
  else
    return false

/-- Steps over a token of a kind, which must stand at the cursor. -/
def expect (k : TokenKind) : Parse Token := do
  if (← kind) = k then advance else refuse (.token k)

/-- The origin of a node that runs from a token to the last token passed. -/
def originFrom (t : Token) : Parse Origin := return ⟨(← get).spanFrom t, []⟩

end Parse

/-- How deep the parser stands in gac words and blocks, and how deep it may go. -/
structure Nesting where
  depth : Int
  limit : Int

namespace Nesting

def deeper (n : Nesting) : Nesting := { n with depth := n.depth + 1 }

end Nesting

def Parse.nested (n : Nesting) (inner : Nesting → Parse α) : Parse α :=
  if n.depth ≥ n.limit then refuse (.shallower n.limit) else inner n.deeper

end RelationNotation
