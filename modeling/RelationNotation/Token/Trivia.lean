import RelationNotation.Token.Scan

/-!
Structural tokens and trivia. Blanks, line comments, errors and quoted strings are trivia, but a
quoted string right behind `#[` is structural: it names the included file.
-/

namespace RelationNotation.Token

/-- Whether a token is structural, given the kind of the structural token before it. -/
def isStructural (previous : Option TokenKind) (t : Token) : Bool :=
  !t.kind.isTrivia || (t.kind == .quotedString && previous == some .includeOpen)

/-- The structural tokens of a list, given the kind of the structural token before it. -/
def structuralFrom (previous : Option TokenKind) : List Token → List Token
  | [] => []
  | t :: ts =>
    if isStructural previous t then t :: structuralFrom (some t.kind) ts
    else structuralFrom previous ts

/-- The trivia of a list, given the kind of the structural token before it. -/
def triviaFrom (previous : Option TokenKind) : List Token → List Token
  | [] => []
  | t :: ts =>
    if isStructural previous t then triviaFrom (some t.kind) ts
    else t :: triviaFrom previous ts

def structural (ts : List Token) : List Token := structuralFrom none ts

def trivia (ts : List Token) : List Token := triviaFrom none ts

end RelationNotation.Token
