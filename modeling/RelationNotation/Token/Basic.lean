import RelationNotation.Source.Span
import RelationNotation.Text.Quoted
import RelationNotation.Token.Kind

/-!
Tokens: stretches of the source text with a kind. A stretch that no rule of the notation matches is
a token too, of kind `error`, and carries the fault.
-/

namespace RelationNotation

/-- Why a stretch of text is not a token of the notation. -/
inductive ScanFault where
  /-- No token starts with the character. -/
  | unexpected (c : Char)
  /-- A double quote is never closed. -/
  | unclosedString
  /-- A dash comment is never closed. -/
  | unclosedComment
  /-- The first run of four or more dashes in a dash comment is longer than four. -/
  | longDashRun
  deriving DecidableEq

def dashFence : Text := ['-', '-', '-', '-']

namespace ScanFault

def message : ScanFault → String
  | .unexpected c => "unexpected character " ++ String.ofList (Text.quoted [c])
  | .unclosedString => "unterminated quoted string"
  | .unclosedComment => "unterminated dash comment"
  | .longDashRun => "unterminated dash comment: a run of 5 dashes cannot close it"

def expected : ScanFault → List String
  | .unexpected _ => []
  | .unclosedString => ["\""]
  | .unclosedComment | .longDashRun => [String.ofList dashFence]

end ScanFault

/-- A stretch of source text with its kind. -/
structure Token where
  kind : TokenKind
  text : Text
  span : Span
  /-- The fault of a token of kind `error`. -/
  fault : Option ScanFault := none
  deriving DecidableEq, Inhabited

namespace Token

def endOfInput (p : Position) : Token := ⟨.endOfInput, [], ⟨p, p⟩, none⟩

/-- Whether no trivia separates two tokens: the second starts where the first ends. -/
def touches (s t : Token) : Bool := s.span.stop.offset == t.span.start.offset

def display (t : Token) : String :=
  s!"Token({t.kind.label}, {String.ofList (Text.quoted t.text)}, " ++
    s!"{t.span.start.line}:{t.span.start.column})"

def spanTo (s t : Token) : Span := ⟨s.span.start, t.span.stop⟩

end Token

end RelationNotation
