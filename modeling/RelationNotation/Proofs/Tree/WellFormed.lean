import Mathlib.Data.List.Infix
import RelationNotation.Token.Lexeme
import RelationNotation.Tree.Document

/-!
Trees that could stand for a text: every leaf is a text of its class, no statement is a mistake. And
how deep a tree nests. Neither asks where the tree comes from.
-/

namespace RelationNotation

/-! ### Classes of leaves -/

def isDigits (t : Text) : Bool := !t.isEmpty && t.all Char.isDigit

/-- Whether a text is digits, a point and digits. -/
def isDecimal (t : Text) : Bool :=
  match t.dropWhile Char.isDigit with
  | '.' :: fraction => isDigits (t.takeWhile Char.isDigit) && isDigits fraction
  | _ => false

/-- Whether a text may stand between double quotes. A backslash hides the character behind it: no
double quote is left open to view, and behind the last character no backslash waits. -/
def isQuotable : Text → Bool
  | [] => true
  | '"' :: _ => false
  | '\\' :: [] => false
  | '\\' :: _ :: cs => isQuotable cs
  | _ :: cs => isQuotable cs

/-- Whether a text is one of some characters. -/
def isOneOf (symbols : List Char) (t : Text) : Bool := symbols.any fun c => t == [c]

/-- The symbols of operators in a pointer expression. -/
def pointerSymbols : List Char := ['|', '&', '?', '!', '_', '=', ',']

/-- The symbols of operators in a gac string. -/
def gacSymbols : List Char := pointerSymbols ++ ['-', '+']

def arithmeticSymbols : List Char := ['+', '-', '*', '/', '%']

/-- Whether an identifier may name something; a lone underscore is an operator. -/
def Identifier.isName (x : Identifier) : Bool := isWord x.text && x.text != ['_']

def UnicodeString.isWellFormed (x : UnicodeString) : Bool :=
  !x.text.isEmpty && x.text.all isStringChar && !isWord x.text && !dashFence.isPrefixOf x.text

def Number.isWellFormed (x : Number) : Bool :=
  if x.isFloat then isDecimal x.text else isDigits x.text

/-- Whether a comment stands between fences, with no fence within and no dash before the last. -/
def DashComment.isWellFormed (x : DashComment) : Bool :=
  x.text == dashFence ++ x.body ++ dashFence && !decide (dashFence <:+: x.body) &&
    x.body.getLast? != some '-'

/-! ### Well-formed trees -/

def StringValue.isWellFormed : StringValue → Bool
  | .identifier x => isWord x.text
  | .unicodeString x => x.isWellFormed

def IncludeFile.isWellFormed : IncludeFile → Bool
  | .identifier x => isWord x.text
  | .unicodeString x => x.isWellFormed
  | .quotedString x => isQuotable x.content

def PointerTerm.isWellFormed : PointerTerm → Bool
  | .number x => x.isWellFormed
  | .operator x => isOneOf pointerSymbols x.symbol
  | .arithmeticOp x => isOneOf arithmeticSymbols x.symbol

def PointerId.isWellFormed : PointerId → Bool
  | .number x => x.isWellFormed
  | .expression x => x.terms.all (·.isWellFormed)

mutual

def GacStem.isWellFormed : GacStem → Bool
  | .fycoide x => x.name.isWellFormed
  | .pointerRef x => x.id.isWellFormed
  | .operator x => isOneOf gacSymbols x.symbol
  | .identifier x => x.isName
  | .front x => x.name.isName
  | .ending x => x.name.isName
  | .synonym x => x.name.isName
  | .nested x => x.isWellFormed

def GacNested.isWellFormed : GacNested → Bool
  | ⟨_, content⟩ => content.isWellFormed

def GacString.isWellFormed : GacString → Bool
  | ⟨_, first, rest⟩ => first.isWellFormed && GacStem.areWellFormed rest

def GacStem.areWellFormed : List GacStem → Bool
  | [] => true
  | x :: xs => x.isWellFormed && GacStem.areWellFormed xs

end

def Pointer.isWellFormedOption : Option Pointer → Bool
  | none => true
  | some x => x.id.isWellFormed

def Expression.isWellFormed : Expression → Bool
  | .typeDesc x => x.description.isWellFormed
  | .protoGacWord x => x.content.isWellFormed && Pointer.isWellFormedOption x.pointer
  | .stdGacWord x => x.content.isWellFormed && Pointer.isWellFormedOption x.pointer
  | .fycoide x => x.name.isWellFormed
  | .pointerRef x => x.id.isWellFormed

mutual

def Relation.isWellFormed : Relation → Bool
  | ⟨_, _, left, right⟩ => left.isWellFormed && right.isWellFormed

def RightSide.isWellFormed : RightSide → Bool
  | .expression x => x.isWellFormed
  | .emptyBlock => true
  | .block body => body.isWellFormed

def BlockBody.isWellFormed : BlockBody → Bool
  | ⟨_, first, rest, _⟩ => first.isWellFormed && Element.areWellFormed rest

def Element.isWellFormed : Element → Bool
  | .expression x => x.isWellFormed
  | .inclusion x => x.file.isWellFormed
  | .relation x => x.isWellFormed

def Element.areWellFormed : List Element → Bool
  | [] => true
  | x :: xs => x.isWellFormed && Element.areWellFormed xs

end

def FunctionBlock.isWellFormed : FunctionBlock → Bool
  | .inclusion x => x.file.isWellFormed
  | .relation x => x.isWellFormed

def Statement.isWellFormed : Statement → Bool
  | .block x => x.block.isWellFormed
  | .dashComment x => x.isWellFormed
  | .empty _ => true
  | .error _ => false

def Document.isWellFormed (d : Document) : Bool := d.statements.all (·.isWellFormed)

/-! ### Nesting

The brackets of gac words and nested stems count, and the braces of relations, empty ones too. Those
of includes and pointer expressions do not: nothing nests in them. -/

mutual

def GacStem.nesting : GacStem → Nat
  | .nested x => x.nesting
  | _ => 0

def GacNested.nesting : GacNested → Nat
  | ⟨_, content⟩ => content.nesting + 1

def GacString.nesting : GacString → Nat
  | ⟨_, first, rest⟩ => max first.nesting (GacStem.nestingAmong rest)

def GacStem.nestingAmong : List GacStem → Nat
  | [] => 0
  | x :: xs => max x.nesting (GacStem.nestingAmong xs)

end

def Expression.nesting : Expression → Nat
  | .protoGacWord x => x.content.nesting + 1
  | .stdGacWord x => x.content.nesting + 1
  | _ => 0

mutual

def Relation.nesting : Relation → Nat
  | ⟨_, _, left, right⟩ => max left.nesting right.nesting

def RightSide.nesting : RightSide → Nat
  | .expression x => x.nesting
  | .emptyBlock => 1
  | .block body => body.nesting + 1

def BlockBody.nesting : BlockBody → Nat
  | ⟨_, first, rest, _⟩ => max first.nesting (Element.nestingAmong rest)

def Element.nesting : Element → Nat
  | .expression x => x.nesting
  | .inclusion _ => 0
  | .relation x => x.nesting

def Element.nestingAmong : List Element → Nat
  | [] => 0
  | x :: xs => max x.nesting (Element.nestingAmong xs)

end

def FunctionBlock.nesting : FunctionBlock → Nat
  | .inclusion _ => 0
  | .relation x => x.nesting

def Statement.nesting : Statement → Nat
  | .block x => x.block.nesting
  | _ => 0

/-- How deep a document nests: as deep as its deepest statement. -/
def Document.nesting (d : Document) : Nat := d.statements.foldr (fun x n => max x.nesting n) 0

theorem Document.nesting_le_iff {d : Document} {n : Nat} :
    d.nesting ≤ n ↔ ∀ x ∈ d.statements, x.nesting ≤ n := by
  obtain ⟨origin, xs⟩ := d
  show xs.foldr (fun x n => max x.nesting n) 0 ≤ n ↔ ∀ x ∈ xs, x.nesting ≤ n
  induction xs with
  | nil => simp
  | cons x xs ih => rw [List.foldr_cons, Nat.max_le, ih, List.forall_mem_cons]

end RelationNotation
