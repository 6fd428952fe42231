import RelationNotation.Tree.Document

/-!
Canonical text: one statement a line, single spaces between the parts of a statement. Text skipped
after a mistake is written as it was.
-/

namespace RelationNotation

def Identifier.canonical (x : Identifier) : Text := x.text

def UnicodeString.canonical (x : UnicodeString) : Text := x.text

def QuotedString.canonical (x : QuotedString) : Text := '"' :: x.content ++ ['"']

def Number.canonical (x : Number) : Text := x.text

def Operator.canonical (x : Operator) : Text := x.symbol

def ArithmeticOp.canonical (x : ArithmeticOp) : Text := x.symbol

def StringValue.canonical (x : StringValue) : Text := x.text

def IncludeFile.canonical : IncludeFile → Text
  | .identifier x => x.canonical
  | .unicodeString x => x.canonical
  | .quotedString x => x.canonical

def PointerTerm.canonical : PointerTerm → Text
  | .number x => x.canonical
  | .operator x => x.canonical
  | .arithmeticOp x => x.canonical

def PointerExpression.canonical (x : PointerExpression) : Text :=
  '[' :: x.first.canonical ++ x.rest.flatMap (fun y => ' ' :: y.canonical) ++ [']']

def PointerId.canonical : PointerId → Text
  | .number x => x.canonical
  | .expression x => x.canonical

def Pointer.canonical (x : Pointer) : Text := '@' :: x.id.canonical

def PointerRef.canonical (x : PointerRef) : Text := '@' :: x.id.canonical

def Fycoide.canonical (x : Fycoide) : Text := '#' :: '(' :: x.name.canonical ++ [')']

def TypeDesc.canonical (x : TypeDesc) : Text := '\x27' :: x.description.canonical ++ ['\x27']

def GacPrefix.canonical (x : GacPrefix) : Text := x.name.text ++ x.marker.text.toList

def GacSuffix.canonical (x : GacSuffix) : Text := x.marker.text.toList ++ x.name.text

def GacSynonym.canonical (x : GacSynonym) : Text := '|' :: '>' :: x.name.text

mutual

def GacStem.canonical : GacStem → Text
  | .fycoide x => x.canonical
  | .pointerRef x => x.canonical
  | .operator x => x.canonical
  | .identifier x => x.canonical
  | .front x => x.canonical
  | .ending x => x.canonical
  | .synonym x => x.canonical
  | .nested x => x.canonical

def GacNested.canonical : GacNested → Text
  | ⟨_, content⟩ => '[' :: content.canonical ++ [']']

def GacString.canonical : GacString → Text
  | ⟨_, first, rest⟩ => first.canonical ++ GacStem.canonicalRest rest

def GacStem.canonicalRest : List GacStem → Text
  | [] => []
  | x :: xs => ' ' :: x.canonical ++ GacStem.canonicalRest xs

end

def Pointer.canonicalOption : Option Pointer → Text
  | none => []
  | some x => x.canonical

def ProtoGacWord.canonical (x : ProtoGacWord) : Text :=
  '*' :: '[' :: x.content.canonical ++ ']' :: Pointer.canonicalOption x.pointer

def StdGacWord.canonical (x : StdGacWord) : Text :=
  '[' :: x.content.canonical ++ ']' :: Pointer.canonicalOption x.pointer

def Expression.canonical : Expression → Text
  | .typeDesc x => x.canonical
  | .protoGacWord x => x.canonical
  | .stdGacWord x => x.canonical
  | .fycoide x => x.canonical
  | .pointerRef x => x.canonical

def Include.canonical (x : Include) : Text := '#' :: '[' :: x.file.canonical ++ [']']

def relationText (left : Text) (operator : String) (right : Text) : Text :=
  left ++ ' ' :: operator.toList ++ ' ' :: right

mutual

def Relation.canonical : Relation → Text
  | ⟨kind, _, left, right⟩ => relationText left.canonical kind.operator right.canonical

def RightSide.canonical : RightSide → Text
  | .expression x => x.canonical
  | .emptyBlock => ['{', '}']
  | .block body => '{' :: ' ' :: body.canonical ++ [' ', '}']

def BlockBody.canonical : BlockBody → Text
  | ⟨_, first, rest, trailingComma⟩ =>
    first.canonical ++ Element.canonicalRest rest ++ if trailingComma then [','] else []

def Element.canonical : Element → Text
  | .expression x => x.canonical
  | .inclusion x => x.canonical
  | .relation x => x.canonical

def Element.canonicalRest : List Element → Text
  | [] => []
  | x :: xs => ',' :: ' ' :: x.canonical ++ Element.canonicalRest xs

end

def FunctionBlock.canonical : FunctionBlock → Text
  | .inclusion x => x.canonical
  | .relation x => x.canonical

def DashComment.canonical (x : DashComment) : Text := x.text

def EmptyStatement.canonical (_ : EmptyStatement) : Text := [';']

def ErrorStatement.canonical (x : ErrorStatement) : Text := x.text

def BlockStatement.canonical (x : BlockStatement) : Text := x.block.canonical ++ [';']

def Statement.canonical : Statement → Text
  | .block x => x.canonical
  | .dashComment x => x.canonical
  | .empty x => x.canonical
  | .error x => x.canonical

def Document.canonical (d : Document) : Text := Text.joinLines (d.statements.map (·.canonical))

end RelationNotation
