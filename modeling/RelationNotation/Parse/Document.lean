import RelationNotation.Parse.Statement
import RelationNotation.Token.Trivia
import RelationNotation.Tree.Attach

/-!
Reading a text as a document. Whatever the text, there is a document; what is wrong with the text is
in the diagnostics.
-/

namespace RelationNotation

/-- How a text is read. -/
structure ParserOptions where
  /-- How deep gac words and blocks may nest. -/
  maxDepth : Int := 64
  /-- Whether trivia is kept in the tree. -/
  attachTrivia : Bool := true
  deriving DecidableEq

/-- What a text was read as: a document, everything found wrong, and every token but the end of the
input. -/
structure Parsed where
  document : Document
  diagnostics : List Diagnostic
  tokens : List Token

namespace Parsed

def ok (p : Parsed) : Bool := p.diagnostics.isEmpty

def text (p : Parsed) : Text := p.tokens.flatMap Token.text

end Parsed

namespace Token

def toDiagnostic? (t : Token) : Option Diagnostic :=
  t.fault.map fun f => ⟨.lexical, f.message, t.span, f.expected⟩

def toTrivia (t : Token) : Trivia :=
  let kind : TriviaKind :=
    match t.kind with
    | .whitespace => .whitespace
    | .lineComment => .lineComment
    | .quotedString => .quoteComment
    | _ => .error
  ⟨kind, t.text, t.span⟩

end Token

/-- The document that structural tokens of a text make up, and what the grammar finds wrong. -/
def parseTokens (source : Text) (tokens : List Token) (limit : Int) : Document × List Diagnostic :=
  let (document, session) := (Session.start source tokens limit).document
  (document, session.diagnostics)

def parseDocument (source : Text) (options : ParserOptions := {}) : Parsed :=
  let tokens := scan source
  let trivia := Token.trivia tokens
  let (document, syntactic) := parseTokens source (Token.structural tokens) options.maxDepth
  { document :=
      if options.attachTrivia then document.attach (trivia.map Token.toTrivia) else document
    diagnostics := Diagnostic.inOrder (trivia.filterMap Token.toDiagnostic? ++ syntactic)
    tokens := tokens.dropLast }

end RelationNotation
