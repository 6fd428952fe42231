import RelationNotation.Source.Span

/-!
What every node of a syntax tree carries besides its own content: the span it covers and the trivia
kept beside it. An `OriginMap` is a pass over a tree that changes nothing else: it says what a
node's origin becomes and what the pass carries on to each child.
-/

namespace RelationNotation

/-- Kinds of trivia in a tree. -/
inductive TriviaKind where
  | whitespace | lineComment | quoteComment | error
  deriving DecidableEq, Inhabited

namespace TriviaKind

def all : List TriviaKind := [.whitespace, .lineComment, .quoteComment, .error]

def text : TriviaKind → String
  | .whitespace => "whitespace"
  | .lineComment => "line_comment"
  | .quoteComment => "quote_comment"
  | .error => "error"

def ofText? (t : String) : Option TriviaKind := all.find? fun k => k.text == t

theorem ofText?_text (k : TriviaKind) : ofText? k.text = some k := by
  cases k <;> decide

end TriviaKind

/-- Blank, comment or unreadable text kept beside the tree. -/
structure Trivia where
  kind : TriviaKind
  text : Text
  span : Span
  deriving DecidableEq, Inhabited

/-- Where a node stands in the source, and the trivia kept beside it. -/
structure Origin where
  span : Span
  trivia : List Trivia := []
  deriving DecidableEq, Inhabited

/-- A pass over a tree that changes origins only. At each node it holds a state and sees the spans
of the node's children. -/
structure OriginMap (σ : Type) where
  /-- The new origin of a node. -/
  here : σ → List Span → Origin → Origin
  /-- The state for the child of the given index. -/
  below : σ → List Span → Nat → σ

namespace OriginMap

def each (f : Origin → Origin) : OriginMap Unit := ⟨fun _ _ => f, fun _ _ _ => ()⟩

def leaf (p : OriginMap σ) (s : σ) (o : Origin) : Origin := p.here s [] o

end OriginMap

end RelationNotation
