import RelationNotation.Tree.Origin

/-!
Leaves of the syntax tree, and the choices between leaves: what may stand as a string, as an
included file, or in a pointer expression.
-/

namespace RelationNotation

/-- A bare identifier. -/
structure Identifier where
  origin : Origin
  text : Text
  deriving DecidableEq, Inhabited

/-- A run of string characters that is not an identifier. -/
structure UnicodeString where
  origin : Origin
  text : Text
  deriving DecidableEq, Inhabited

/-- A string between double quotes, without the quotes. -/
structure QuotedString where
  origin : Origin
  content : Text
  deriving DecidableEq, Inhabited

/-- A number, as it is written. -/
structure Number where
  origin : Origin
  text : Text
  isFloat : Bool
  deriving DecidableEq, Inhabited

/-- A bare operator. -/
structure Operator where
  origin : Origin
  symbol : Text
  deriving DecidableEq, Inhabited

/-- An arithmetic symbol in a pointer expression. -/
structure ArithmeticOp where
  origin : Origin
  symbol : Text
  deriving DecidableEq, Inhabited

/-- A string value: an identifier or a unicode string. -/
inductive StringValue where
  | identifier (x : Identifier)
  | unicodeString (x : UnicodeString)
  deriving DecidableEq

/-- What an include names. -/
inductive IncludeFile where
  | identifier (x : Identifier)
  | unicodeString (x : UnicodeString)
  | quotedString (x : QuotedString)
  deriving DecidableEq

/-- A term of a pointer expression. -/
inductive PointerTerm where
  | number (x : Number)
  | operator (x : Operator)
  | arithmeticOp (x : ArithmeticOp)
  deriving DecidableEq

namespace StringValue

def origin : StringValue → Origin
  | .identifier x => x.origin
  | .unicodeString x => x.origin

def text : StringValue → Text
  | .identifier x => x.text
  | .unicodeString x => x.text

end StringValue

namespace IncludeFile

def origin : IncludeFile → Origin
  | .identifier x => x.origin
  | .unicodeString x => x.origin
  | .quotedString x => x.origin

end IncludeFile

namespace PointerTerm

def origin : PointerTerm → Origin
  | .number x => x.origin
  | .operator x => x.origin
  | .arithmeticOp x => x.origin

end PointerTerm

/-! ### Passes over leaves -/

section
variable {σ : Type} (p : OriginMap σ) (s : σ)

def Identifier.mapOrigins (x : Identifier) : Identifier := { x with origin := p.leaf s x.origin }

def UnicodeString.mapOrigins (x : UnicodeString) : UnicodeString :=
  { x with origin := p.leaf s x.origin }

def QuotedString.mapOrigins (x : QuotedString) : QuotedString :=
  { x with origin := p.leaf s x.origin }

def Number.mapOrigins (x : Number) : Number := { x with origin := p.leaf s x.origin }

def Operator.mapOrigins (x : Operator) : Operator := { x with origin := p.leaf s x.origin }

def ArithmeticOp.mapOrigins (x : ArithmeticOp) : ArithmeticOp :=
  { x with origin := p.leaf s x.origin }

def StringValue.mapOrigins : StringValue → StringValue
  | .identifier x => .identifier (x.mapOrigins p s)
  | .unicodeString x => .unicodeString (x.mapOrigins p s)

def IncludeFile.mapOrigins : IncludeFile → IncludeFile
  | .identifier x => .identifier (x.mapOrigins p s)
  | .unicodeString x => .unicodeString (x.mapOrigins p s)
  | .quotedString x => .quotedString (x.mapOrigins p s)

def PointerTerm.mapOrigins : PointerTerm → PointerTerm
  | .number x => .number (x.mapOrigins p s)
  | .operator x => .operator (x.mapOrigins p s)
  | .arithmeticOp x => .arithmeticOp (x.mapOrigins p s)

end

end RelationNotation
