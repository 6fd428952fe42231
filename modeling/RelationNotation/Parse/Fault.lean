import RelationNotation.Diagnostic.Basic
import RelationNotation.Token.Basic

/-!
Faults of parsing: what the grammar demanded, and the token that stood there instead.
-/

namespace RelationNotation

/-- What is demanded at a token. -/
inductive Demand where
  | token (kind : TokenKind)
  | expression
  | string
  | gacStem
  | pointerTarget
  | pointerTerm
  | relationOperator
  | commaOrBrace
  | includeFile
  /-- That nesting be no deeper than a limit. -/
  | shallower (limit : Int)
  /-- What a caller of the parser demands, in its own words. -/
  | other (phrase : String) (kinds : List TokenKind)

/-! ### Token kinds that begin a construct -/

namespace TokenKind

def expressionStarts : List TokenKind := [.quote, .leftBracket, .protoOpen, .fycoideOpen, .atSign]

def strings : List TokenKind := [.identifier, .unicodeString]

def bareOperators : List TokenKind :=
  [.pipe, .amp, .question, .bang, .underscore, .equals, .comma]

def arithmeticOperators : List TokenKind := [.plus, .minus, .star, .slash, .percent]

def numbers : List TokenKind := [.integer, .float]

def gacStemStarts : List TokenKind :=
  [.fycoideOpen, .atSign, .identifier, .minus, .plus, .synonym, .leftBracket] ++ bareOperators

def pointerTerms : List TokenKind := numbers ++ bareOperators ++ arithmeticOperators

def relationOperators : List TokenKind := [.shape, .hold, .shift, .flow, .melt]

def includeFiles : List TokenKind := [.identifier, .unicodeString, .quotedString]

def isOpener : TokenKind → Bool
  | .leftBracket | .protoOpen | .includeOpen | .fycoideOpen | .leftBrace => true
  | _ => false

def isCloser : TokenKind → Bool
  | .rightBracket | .rightBrace | .rightParen => true
  | _ => false

end TokenKind

namespace Demand

def phrase : Demand → String
  | .token kind => "Expected " ++ kind.describe
  | .expression => "Expected expression"
  | .string => "Expected string"
  | .gacStem => "Expected gac stem"
  | .pointerTarget => "Expected pointer target"
  | .pointerTerm => "Expected pointer expression term"
  | .relationOperator => "Expected relation operator"
  | .commaOrBrace => "Expected ',' or '\x7d'"
  | .includeFile => "Expected include file"
  | .shallower limit => s!"Nesting too deep (limit {limit})"
  | .other phrase _ => phrase

def kinds : Demand → List TokenKind
  | .token kind => [kind]
  | .expression => TokenKind.expressionStarts
  | .string => TokenKind.strings
  | .gacStem => TokenKind.gacStemStarts
  | .pointerTarget => TokenKind.numbers ++ [.leftBracket]
  | .pointerTerm => TokenKind.pointerTerms
  | .relationOperator => TokenKind.relationOperators
  | .commaOrBrace => [.comma, .rightBrace]
  | .includeFile => TokenKind.includeFiles
  | .shallower _ => []
  | .other _ kinds => kinds

end Demand

/-- A demand that the token found does not meet. -/
structure SyntaxFault where
  demand : Demand
  found : Token

namespace SyntaxFault

def describeFound (t : Token) : String :=
  if t.kind = .endOfInput then t.kind.describe else String.ofList (Text.quoted t.text)

def message (f : SyntaxFault) : String := f.demand.phrase ++ ", got " ++ describeFound f.found

def span (f : SyntaxFault) : Span := f.found.span

/-- The names of the kinds of tokens that would have been accepted. -/
def expected (f : SyntaxFault) : List String := f.demand.kinds.map TokenKind.text

def toDiagnostic (f : SyntaxFault) : Diagnostic := ⟨.grammatical, f.message, f.span, f.expected⟩

end SyntaxFault

end RelationNotation
