/-!
The kinds of tokens of the relation notation: trivia, literals, punctuation and the end of the
input. A kind of punctuation is named by its literal text, every other kind by a word.
-/

namespace RelationNotation

/-- What a token is. -/
inductive TokenKind where
  | whitespace | lineComment | quotedString | error | dashComment | identifier | unicodeString
  | integer | float | includeOpen | fycoideOpen | protoOpen | leftBracket | rightBracket
  | leftBrace | rightBrace | rightParen | quote | shape | hold | shift | flow | melt | atSign
  | synonym | prefixMark | pipe | amp | question | bang | underscore | equals | comma | plus
  | minus | star | slash | percent | semicolon | endOfInput
  deriving DecidableEq, Inhabited

namespace TokenKind

def all : List TokenKind :=
  [.whitespace, .lineComment, .quotedString, .error, .dashComment, .identifier, .unicodeString,
    .integer, .float, .includeOpen, .fycoideOpen, .protoOpen, .leftBracket, .rightBracket,
    .leftBrace, .rightBrace, .rightParen, .quote, .shape, .hold, .shift, .flow, .melt, .atSign,
    .synonym, .prefixMark, .pipe, .amp, .question, .bang, .underscore, .equals, .comma, .plus,
    .minus, .star, .slash, .percent, .semicolon, .endOfInput]

/-- The text that names a kind: the literal text of punctuation, a word for every other kind. -/
def text : TokenKind → String
  | .whitespace => "whitespace"
  | .lineComment => "line_comment"
  | .quotedString => "quoted_string"
  | .error => "error"
  | .dashComment => "dash_comment"
  | .identifier => "identifier"
  | .unicodeString => "unicode_string"
  | .integer => "integer"
  | .float => "float"
  | .includeOpen => "#["
  | .fycoideOpen => "#("
  | .protoOpen => "*["
  | .leftBracket => "["
  | .rightBracket => "]"
  | .leftBrace => "\x7b"
  | .rightBrace => "\x7d"
  | .rightParen => ")"
  | .quote => "\x27"
  | .shape => "::"
  | .hold => "<-"
  | .shift => "->"
  | .flow => ">>"
  | .melt => "@>"
  | .atSign => "@"
  | .synonym => "|>"
  | .prefixMark => "<|"
  | .pipe => "|"
  | .amp => "&"
  | .question => "?"
  | .bang => "!"
  | .underscore => "_"
  | .equals => "="
  | .comma => ","
  | .plus => "+"
  | .minus => "-"
  | .star => "*"
  | .slash => "/"
  | .percent => "%"
  | .semicolon => ";"
  | .endOfInput => "end of input"

def ofText? (t : String) : Option TokenKind := all.find? fun k => k.text == t

def label : TokenKind → String
  | .whitespace => "WHITESPACE"
  | .lineComment => "LINE_COMMENT"
  | .quotedString => "QUOTED_STRING"
  | .error => "ERROR"
  | .dashComment => "DASH_COMMENT"
  | .identifier => "IDENTIFIER"
  | .unicodeString => "UNICODE_STRING"
  | .integer => "INTEGER"
  | .float => "FLOAT"
  | .includeOpen => "INCLUDE_OPEN"
  | .fycoideOpen => "FYCOIDE_OPEN"
  | .protoOpen => "PROTO_OPEN"
  | .leftBracket => "LBRACKET"
  | .rightBracket => "RBRACKET"
  | .leftBrace => "LBRACE"
  | .rightBrace => "RBRACE"
  | .rightParen => "RPAREN"
  | .quote => "QUOTE"
  | .shape => "SHAPE"
  | .hold => "HOLD"
  | .shift => "SHIFT"
  | .flow => "FLOW"
  | .melt => "MELT"
  | .atSign => "AT"
  | .synonym => "SYNONYM"
  | .prefixMark => "PREFIX_MARK"
  | .pipe => "PIPE"
  | .amp => "AMP"
  | .question => "QUESTION"
  | .bang => "BANG"
  | .underscore => "UNDERSCORE"
  | .equals => "EQUALS"
  | .comma => "COMMA"
  | .plus => "PLUS"
  | .minus => "MINUS"
  | .star => "STAR"
  | .slash => "SLASH"
  | .percent => "PERCENT"
  | .semicolon => "SEMICOLON"
  | .endOfInput => "EOF"

/-- Whether a kind is named by a word, its tokens having no one text. -/
def isClass : TokenKind → Bool
  | .whitespace | .lineComment | .quotedString | .error | .dashComment | .identifier
  | .unicodeString | .integer | .float | .endOfInput => true
  | _ => false

/-- A kind as messages name it: punctuation stands between single quotes. -/
def describe (k : TokenKind) : String :=
  if k.isClass then k.text else "\x27" ++ k.text ++ "\x27"

/-- Whether tokens of a kind stand beside the tree rather than in it; a quoted string may do both. -/
def isTrivia : TokenKind → Bool
  | .whitespace | .lineComment | .quotedString | .error => true
  | _ => false

end TokenKind

end RelationNotation
