import RelationNotation.Diagnostic.Basic
import RelationNotation.Json.Value
import RelationNotation.Tree.Node

/-!
Trees as JSON. A node is an object: its kind, its span, its trivia, then its own fields, none of
them left out. A tree is written however deep it is; trees that go down further than the reader does
(`Json.levelLimit`) are written but not read.
-/

namespace RelationNotation

def Span.toJson (s : Span) : Json :=
  .object [("start", .int s.start.offset), ("end", .int s.stop.offset),
    ("line", .int s.start.line), ("column", .int s.start.column),
    ("end_line", .int s.stop.line), ("end_column", .int s.stop.column)]

def Trivia.toJson (x : Trivia) : Json :=
  .object [("kind", .str x.kind.text), ("text", .string x.text), ("span", x.span.toJson)]

def Diagnostic.toJson (d : Diagnostic) : Json :=
  .object [("kind", .str d.kind.text), ("message", .str d.message), ("span", d.span.toJson),
    ("expected", .array (d.expected.map Json.str))]

def Origin.toJson (o : Origin) (kind : String) (fields : List (String × Json)) : Json :=
  .object (("kind", .str kind) :: ("span", o.span.toJson) ::
    ("trivia", .array (o.trivia.map Trivia.toJson)) :: fields)

def Identifier.toJson (x : Identifier) : Json :=
  x.origin.toJson "identifier" [("text", .string x.text)]

def UnicodeString.toJson (x : UnicodeString) : Json :=
  x.origin.toJson "unicode_string" [("text", .string x.text)]

def QuotedString.toJson (x : QuotedString) : Json :=
  x.origin.toJson "quoted_string" [("content", .string x.content)]

def Number.toJson (x : Number) : Json :=
  x.origin.toJson "number" [("text", .string x.text), ("is_float", .bool x.isFloat)]

def Operator.toJson (x : Operator) : Json :=
  x.origin.toJson "operator" [("symbol", .string x.symbol)]

def ArithmeticOp.toJson (x : ArithmeticOp) : Json :=
  x.origin.toJson "arithmetic_op" [("symbol", .string x.symbol)]

def StringValue.toJson : StringValue → Json
  | .identifier x => x.toJson
  | .unicodeString x => x.toJson

def IncludeFile.toJson : IncludeFile → Json
  | .identifier x => x.toJson
  | .unicodeString x => x.toJson
  | .quotedString x => x.toJson

def PointerTerm.toJson : PointerTerm → Json
  | .number x => x.toJson
  | .operator x => x.toJson
  | .arithmeticOp x => x.toJson

def PointerExpression.toJson (x : PointerExpression) : Json :=
  x.origin.toJson "pointer_expression" [("expression", .array (x.terms.map PointerTerm.toJson))]

def PointerId.toJson : PointerId → Json
  | .number x => x.toJson
  | .expression x => x.toJson

def Pointer.toJson (x : Pointer) : Json := x.origin.toJson "pointer" [("id", x.id.toJson)]

def PointerRef.toJson (x : PointerRef) : Json :=
  x.origin.toJson "pointer_ref" [("id", x.id.toJson)]

def Fycoide.toJson (x : Fycoide) : Json := x.origin.toJson "fycoide" [("name", x.name.toJson)]

def TypeDesc.toJson (x : TypeDesc) : Json :=
  x.origin.toJson "type_desc" [("description", x.description.toJson)]

def GacPrefix.toJson (x : GacPrefix) : Json :=
  x.origin.toJson "gac_prefix" [("prefix", x.name.toJson), ("marker", .str x.marker.text)]

def GacSuffix.toJson (x : GacSuffix) : Json :=
  x.origin.toJson "gac_suffix" [("marker", .str x.marker.text), ("suffix", x.name.toJson)]

def GacSynonym.toJson (x : GacSynonym) : Json :=
  x.origin.toJson "gac_synonym" [("synonym", x.name.toJson)]

mutual

def GacStem.toJson : GacStem → Json
  | .fycoide x => x.toJson
  | .pointerRef x => x.toJson
  | .operator x => x.toJson
  | .identifier x => x.toJson
  | .front x => x.toJson
  | .ending x => x.toJson
  | .synonym x => x.toJson
  | .nested x => x.toJson

def GacNested.toJson : GacNested → Json
  | ⟨origin, content⟩ => origin.toJson "gac_nested" [("content", content.toJson)]

def GacString.toJson : GacString → Json
  | ⟨origin, first, rest⟩ =>
    origin.toJson "gac_string" [("stems", .array (first.toJson :: GacStem.toJsonList rest))]

def GacStem.toJsonList : List GacStem → List Json
  | [] => []
  | x :: xs => x.toJson :: GacStem.toJsonList xs

end

/-- An optional field; a missing value is null. -/
def Json.ofOption (f : α → Json) : Option α → Json
  | none => .null
  | some x => f x

def ProtoGacWord.toJson (x : ProtoGacWord) : Json :=
  x.origin.toJson "proto_gac_word"
    [("content", x.content.toJson), ("pointer", .ofOption Pointer.toJson x.pointer)]

def StdGacWord.toJson (x : StdGacWord) : Json :=
  x.origin.toJson "std_gac_word"
    [("content", x.content.toJson), ("pointer", .ofOption Pointer.toJson x.pointer)]

def Expression.toJson : Expression → Json
  | .typeDesc x => x.toJson
  | .protoGacWord x => x.toJson
  | .stdGacWord x => x.toJson
  | .fycoide x => x.toJson
  | .pointerRef x => x.toJson

def Include.toJson (x : Include) : Json := x.origin.toJson "include" [("file", x.file.toJson)]

def relationFields (left right body : Json) (hasBlock : Bool) : List (String × Json) :=
  [("left", left), ("right", right), ("body", body), ("has_block", .bool hasBlock)]

mutual

def Relation.toJson : Relation → Json
  | ⟨kind, origin, left, right⟩ => origin.toJson kind.text (right.toFields left.toJson)

def RightSide.toFields (left : Json) : RightSide → List (String × Json)
  | .expression x => relationFields left x.toJson .null false
  | .emptyBlock => relationFields left .null .null true
  | .block body => relationFields left .null body.toJson true

def BlockBody.toJson : BlockBody → Json
  | ⟨origin, first, rest, trailingComma⟩ =>
    origin.toJson "block_body" [("elements", .array (first.toJson :: Element.toJsonList rest)),
      ("trailing_comma", .bool trailingComma)]

def Element.toJson : Element → Json
  | .expression x => x.toJson
  | .inclusion x => x.toJson
  | .relation x => x.toJson

def Element.toJsonList : List Element → List Json
  | [] => []
  | x :: xs => x.toJson :: Element.toJsonList xs

end

def FunctionBlock.toJson : FunctionBlock → Json
  | .inclusion x => x.toJson
  | .relation x => x.toJson

def BlockStatement.toJson (x : BlockStatement) : Json :=
  x.origin.toJson "statement" [("block", x.block.toJson)]

def DashComment.toJson (x : DashComment) : Json :=
  x.origin.toJson "dash_comment" [("text", .string x.text)]

def EmptyStatement.toJson (x : EmptyStatement) : Json := x.origin.toJson "empty_statement" []

def ErrorStatement.toJson (x : ErrorStatement) : Json :=
  x.origin.toJson "error" [("message", .str x.message), ("text", .string x.text)]

def Statement.toJson : Statement → Json
  | .block x => x.toJson
  | .dashComment x => x.toJson
  | .empty x => x.toJson
  | .error x => x.toJson

def Document.toJson (x : Document) : Json :=
  x.origin.toJson "fgfh_file" [("statements", .array (x.statements.map Statement.toJson))]

def Node.toJson : Node → Json
  | .plain x => x.origin.toJson x.kind []
  | .identifier x => x.toJson
  | .unicodeString x => x.toJson
  | .quotedString x => x.toJson
  | .number x => x.toJson
  | .operator x => x.toJson
  | .arithmeticOp x => x.toJson
  | .pointerExpression x => x.toJson
  | .pointer x => x.toJson
  | .pointerRef x => x.toJson
  | .fycoide x => x.toJson
  | .typeDesc x => x.toJson
  | .gacPrefix x => x.toJson
  | .gacSuffix x => x.toJson
  | .gacSynonym x => x.toJson
  | .gacNested x => x.toJson
  | .gacString x => x.toJson
  | .protoGacWord x => x.toJson
  | .stdGacWord x => x.toJson
  | .blockBody x => x.toJson
  | .openRelation x => x.origin.toJson x.kind (x.right.toFields x.left.toJson)
  | .relation x => x.toJson
  | .inclusion x => x.toJson
  | .statement x => x.toJson
  | .dashComment x => x.toJson
  | .emptyStatement x => x.toJson
  | .errorStatement x => x.toJson
  | .document x => x.toJson

end RelationNotation
