import RelationNotation.Parse.Relation
import RelationNotation.Tree.Document

/-!
Reading statements, and going on after a mistake. A session is a cursor, a depth and the
diagnostics so far; `statements` reads to the end of the input, one statement or one mistake at a
time.
-/

namespace RelationNotation

namespace Parse

/-- Reads a function block with its semicolon, a dash comment or a lone semicolon. -/
def statement (n : Nesting) : Parse Statement := do
  let t ← current
  match t.kind with
  | .semicolon =>
    let _ ← advance
    return .empty ⟨t.origin⟩
  | .dashComment =>
    let _ ← advance
    return .dashComment ⟨t.origin, t.text⟩
  | _ =>
    let block ← functionBlock n
    let _ ← expect .semicolon
    return .block ⟨← originFrom t, block⟩

end Parse

namespace Cursor

def depthChange (k : TokenKind) : Int :=
  if k.isOpener then 1 else if k.isCloser then -1 else 0

/-- Skips tokens up to and including the first semicolon at which no more openers than closers have
been skipped, given how many more have been so far. -/
def skipFrom (depth : Int) (before : List Token) (stop : Token) : List Token → Cursor
  | [] => ⟨before, [], stop⟩
  | t :: ts =>
    if t.kind = .semicolon ∧ depth ≤ 0 then ⟨t :: before, ts, stop⟩
    else skipFrom (depth + depthChange t.kind) (t :: before) stop ts

/-- The cursor behind the semicolon that ends a mistake, or at the end of the input. -/
def skip (c : Cursor) : Cursor := skipFrom 0 c.before c.stop c.ahead

end Cursor

/-- A parser at work on a text. -/
structure Session where
  source : Text
  cursor : Cursor
  /-- How deep the parser stands in gac words and blocks, and how deep it may go. -/
  nesting : Nesting
  /-- What has been found wrong, the earliest first. -/
  diagnostics : List Diagnostic

namespace Session

/-- A parser at the start of a text with the given structural tokens. -/
def start (source : Text) (tokens : List Token) (limit : Int) : Session :=
  ⟨source, .ofTokens tokens, ⟨0, limit⟩, []⟩

/-- Records a fault, skips to the end of the mistake and gives the skipped text, from the token of
an index on, as a statement. Nothing is nested behind a mistake. -/
def recover (s : Session) (first : Nat) (fault : SyntaxFault) : ErrorStatement × Session :=
  let c := s.cursor.skip
  let span := if c.index = first then fault.span else c.spanFrom (c.tokens.getD first c.stop)
  (⟨⟨span, []⟩, fault.message, span.slice s.source⟩,
    { s with
      cursor := c
      nesting := { s.nesting with depth := 0 }
      diagnostics := s.diagnostics ++ [fault.toDiagnostic] })

/-- Reads a statement, or records the mistake that keeps it from being read. One mistake is left out:
under a limit of depth above what the interpreter's stack can hold, to run out of that stack. -/
def statement (s : Session) : Statement × Session :=
  match Parse.statement s.nesting s.cursor with
  | .ok x c => (x, { s with cursor := c })
  | .error fault c =>
    let (x, s') := { s with cursor := c }.recover s.cursor.index fault
    (.error x, s')

/-- Reads statements up to the end of the input, up to a number of them. -/
def statementsWithin : Nat → Session → List Statement × Session
  | 0, s => ([], s)
  | k + 1, s =>
    if s.cursor.kind = .endOfInput then ([], s)
    else
      let (x, s₁) := s.statement
      let (xs, s₂) := s₁.statementsWithin k
      (x :: xs, s₂)

/-- Reads statements up to the end of the input. Each takes a token at least. -/
def statements (s : Session) : List Statement × Session := s.statementsWithin s.cursor.remaining

/-- The span of a whole text, given the token at the end of the input. -/
def wholeSpan (source : Text) (stop : Token) : Span :=
  ⟨.start, { stop.span.stop with offset := source.length }⟩

def document (s : Session) : Document × Session :=
  let (xs, s') := s.statements
  (⟨⟨wholeSpan s.source s'.cursor.current, []⟩, xs⟩, s')

end Session

end RelationNotation
