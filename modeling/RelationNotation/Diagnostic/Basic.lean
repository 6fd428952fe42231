import RelationNotation.Source.Span

/-!
Diagnostics: what scanning and parsing found wrong with a text.
-/

namespace RelationNotation

/-- The two classes of problems: no token rule matches, or no production of the grammar. -/
inductive DiagnosticKind where
  | lexical | grammatical
  deriving DecidableEq, Inhabited

namespace DiagnosticKind

def all : List DiagnosticKind := [.lexical, .grammatical]

def text : DiagnosticKind → String
  | .lexical => "LexicalError"
  | .grammatical => "SyntaxError"

def ofText? (t : String) : Option DiagnosticKind := all.find? fun k => k.text == t

theorem ofText?_text (k : DiagnosticKind) : ofText? k.text = some k := by
  cases k <;> decide

end DiagnosticKind

/-- One problem found in a text, with the tokens that would have been accepted in its place. -/
structure Diagnostic where
  kind : DiagnosticKind
  message : String
  span : Span
  expected : List String := []
  deriving DecidableEq, Inhabited

namespace Diagnostic

def toText (d : Diagnostic) : String :=
  s!"{d.span.start.line}:{d.span.start.column}: {d.kind.text}: {d.message}"

/-- Whether one diagnostic may stand before another: by start, then by end. -/
def isBefore (d e : Diagnostic) : Bool :=
  d.span.start.offset < e.span.start.offset ||
    (d.span.start.offset == e.span.start.offset && d.span.stop.offset ≤ e.span.stop.offset)

/-- Diagnostics in the order of their spans; those of equal spans keep their order. -/
def inOrder (ds : List Diagnostic) : List Diagnostic := ds.mergeSort isBefore

end Diagnostic

end RelationNotation
