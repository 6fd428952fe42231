import RelationNotation.Json.Checked
import RelationNotation.Json.Layout
import RelationNotation.Tree.Encode

/-!
Trees from JSON text. The kind of a node may be left out where only one kind can stand, trivia and
flags may be left out, and unknown members are passed over. A gac string or a block body may hold
others; each level is a level of the JSON value, so `Json.depth` levels are enough.
-/

namespace RelationNotation

open Json (field fieldOr toModel toChoice)

abbrev Members := List (String × Json)

/-! ### Spans, trivia and diagnostics -/

def Span.ofNumbers (start stop line column endLine endColumn : Int) : Span :=
  ⟨⟨start, line, column⟩, ⟨stop, endLine, endColumn⟩⟩

def Span.ofMembers (ms : Members) : Checked Span :=
  Span.ofNumbers <$> field ms "start" Json.toInt <*> field ms "end" Json.toInt <*>
    field ms "line" Json.toInt <*> field ms "column" Json.toInt <*>
    field ms "end_line" Json.toInt <*> field ms "end_column" Json.toInt

def Trivia.ofMembers (ms : Members) : Checked Trivia :=
  Trivia.mk <$> field ms "kind" (Json.toEnumeration TriviaKind.ofText?) <*>
    field ms "text" Json.toText <*> field ms "span" (toModel Span.ofMembers)

def Json.toStr (j : Json) : Checked String := String.ofList <$> Json.toText j

def Diagnostic.ofMembers (ms : Members) : Checked Diagnostic :=
  Diagnostic.mk <$> field ms "kind" (Json.toEnumeration DiagnosticKind.ofText?) <*>
    field ms "message" Json.toStr <*> field ms "span" (toModel Span.ofMembers) <*>
    fieldOr [] ms "expected" (Json.toList Json.toStr)

def Origin.ofMembers (ms : Members) : Checked Origin :=
  Origin.mk <$> field ms "span" (toModel Span.ofMembers) <*>
    fieldOr [] ms "trivia" (Json.toList (toModel Trivia.ofMembers))

/-- Checks the kind of a node, if it is given, and reads the node's origin. -/
def originOf (kind : String) (ms : Members) : Checked Origin :=
  (fun _ o => o) <$>
    fieldOr () ms "kind" (Json.toLiteral fun t => if t = kind then some () else none) <*>
    Origin.ofMembers ms

/-! ### Leaves -/

def Identifier.ofMembers (ms : Members) : Checked Identifier :=
  Identifier.mk <$> originOf "identifier" ms <*> field ms "text" Json.toText

def UnicodeString.ofMembers (ms : Members) : Checked UnicodeString :=
  UnicodeString.mk <$> originOf "unicode_string" ms <*> field ms "text" Json.toText

def QuotedString.ofMembers (ms : Members) : Checked QuotedString :=
  QuotedString.mk <$> originOf "quoted_string" ms <*> field ms "content" Json.toText

def Number.ofMembers (ms : Members) : Checked Number :=
  Number.mk <$> originOf "number" ms <*> field ms "text" Json.toText <*>
    fieldOr false ms "is_float" Json.toBool

def Operator.ofMembers (ms : Members) : Checked Operator :=
  Operator.mk <$> originOf "operator" ms <*> field ms "symbol" Json.toText

def ArithmeticOp.ofMembers (ms : Members) : Checked ArithmeticOp :=
  ArithmeticOp.mk <$> originOf "arithmetic_op" ms <*> field ms "symbol" Json.toText

def model (tag : String) (make : α → β) (read : Members → Checked α) :
    String × (Members → Checked β) := (tag, fun ms => make <$> read ms)

def StringValue.ofJson : Json → Checked StringValue :=
  toChoice [model "identifier" .identifier Identifier.ofMembers,
    model "unicode_string" .unicodeString UnicodeString.ofMembers]

def IncludeFile.ofJson : Json → Checked IncludeFile :=
  toChoice [model "identifier" .identifier Identifier.ofMembers,
    model "unicode_string" .unicodeString UnicodeString.ofMembers,
    model "quoted_string" .quotedString QuotedString.ofMembers]

def PointerTerm.ofJson : Json → Checked PointerTerm :=
  toChoice [model "number" .number Number.ofMembers,
    model "operator" .operator Operator.ofMembers,
    model "arithmetic_op" .arithmeticOp ArithmeticOp.ofMembers]

/-! ### Expressions -/

def PointerExpression.ofMembers (ms : Members) : Checked PointerExpression :=
  (fun o (x, xs) => ⟨o, x, xs⟩) <$> originOf "pointer_expression" ms <*>
    field ms "expression" (Json.toNonempty PointerTerm.ofJson)

def PointerId.ofJson : Json → Checked PointerId :=
  toChoice [model "number" .number Number.ofMembers,
    model "pointer_expression" .expression PointerExpression.ofMembers]

def Pointer.ofMembers (ms : Members) : Checked Pointer :=
  Pointer.mk <$> originOf "pointer" ms <*> field ms "id" PointerId.ofJson

def PointerRef.ofMembers (ms : Members) : Checked PointerRef :=
  PointerRef.mk <$> originOf "pointer_ref" ms <*> field ms "id" PointerId.ofJson

def Fycoide.ofMembers (ms : Members) : Checked Fycoide :=
  Fycoide.mk <$> originOf "fycoide" ms <*> field ms "name" StringValue.ofJson

def TypeDesc.ofMembers (ms : Members) : Checked TypeDesc :=
  TypeDesc.mk <$> originOf "type_desc" ms <*> field ms "description" StringValue.ofJson

def GacPrefix.ofMembers (ms : Members) : Checked GacPrefix :=
  GacPrefix.mk <$> originOf "gac_prefix" ms <*> field ms "prefix" (toModel Identifier.ofMembers) <*>
    field ms "marker" (Json.toLiteral PrefixMarker.ofText?)

def GacSuffix.ofMembers (ms : Members) : Checked GacSuffix :=
  GacSuffix.mk <$> originOf "gac_suffix" ms <*>
    field ms "marker" (Json.toLiteral SuffixMarker.ofText?) <*>
    field ms "suffix" (toModel Identifier.ofMembers)

def GacSynonym.ofMembers (ms : Members) : Checked GacSynonym :=
  GacSynonym.mk <$> originOf "gac_synonym" ms <*>
    field ms "synonym" (toModel Identifier.ofMembers)

def GacNested.ofMembersWith (content : Json → Checked GacString) (ms : Members) :
    Checked GacNested :=
  GacNested.mk <$> originOf "gac_nested" ms <*> field ms "content" content

def GacStem.ofJsonWith (content : Json → Checked GacString) : Json → Checked GacStem :=
  toChoice [model "fycoide" .fycoide Fycoide.ofMembers,
    model "pointer_ref" .pointerRef PointerRef.ofMembers,
    model "operator" .operator Operator.ofMembers,
    model "identifier" .identifier Identifier.ofMembers,
    model "gac_prefix" .front GacPrefix.ofMembers,
    model "gac_suffix" .ending GacSuffix.ofMembers,
    model "gac_synonym" .synonym GacSynonym.ofMembers,
    model "gac_nested" .nested (GacNested.ofMembersWith content)]

def GacString.ofMembersWith (content : Json → Checked GacString) (ms : Members) :
    Checked GacString :=
  (fun o (x, xs) => ⟨o, x, xs⟩) <$> originOf "gac_string" ms <*>
    field ms "stems" (Json.toNonempty (GacStem.ofJsonWith content))

def GacString.ofJsonWithin : Nat → Json → Checked GacString
  | 0 => toModel fun _ => .fail .model
  | k + 1 => toModel (ofMembersWith (ofJsonWithin k))

def GacString.ofJson (j : Json) : Checked GacString := ofJsonWithin j.depth j

def GacNested.ofMembers : Members → Checked GacNested := ofMembersWith GacString.ofJson

def ProtoGacWord.ofMembers (ms : Members) : Checked ProtoGacWord :=
  ProtoGacWord.mk <$> originOf "proto_gac_word" ms <*> field ms "content" GacString.ofJson <*>
    fieldOr none ms "pointer" (Json.toOption (toModel Pointer.ofMembers))

def StdGacWord.ofMembers (ms : Members) : Checked StdGacWord :=
  StdGacWord.mk <$> originOf "std_gac_word" ms <*> field ms "content" GacString.ofJson <*>
    fieldOr none ms "pointer" (Json.toOption (toModel Pointer.ofMembers))

def Expression.models (make : Expression → α) : List (String × (Members → Checked α)) :=
  [model "type_desc" (make ∘ .typeDesc) TypeDesc.ofMembers,
    model "proto_gac_word" (make ∘ .protoGacWord) ProtoGacWord.ofMembers,
    model "std_gac_word" (make ∘ .stdGacWord) StdGacWord.ofMembers,
    model "fycoide" (make ∘ .fycoide) Fycoide.ofMembers,
    model "pointer_ref" (make ∘ .pointerRef) PointerRef.ofMembers]

def Expression.ofJson : Json → Checked Expression := toChoice (Expression.models id)

/-! ### Relations -/

def Include.ofMembers (ms : Members) : Checked Include :=
  Include.mk <$> originOf "include" ms <*> field ms "file" IncludeFile.ofJson

/-- The two sides of a relation as they are given: the left one, and of the right one an
expression, a body and whether there is a block. -/
structure SidesGiven where
  left : Expression
  right : Option Expression
  body : Option BlockBody
  hasBlock : Bool

def SidesGiven.sides (g : SidesGiven) : Except IssueKind (Expression × RightSide) :=
  match g.hasBlock, g.right, g.body with
  | true, some _, _ => .error (.conflict "block relation cannot also have a right expression")
  | false, none, _ => .error (.conflict "pure relation requires a right expression")
  | false, some _, some _ => .error (.conflict "body given without the block form")
  | true, none, none => .ok (g.left, .emptyBlock)
  | true, none, some body => .ok (g.left, .block body)
  | false, some right, none => .ok (g.left, .expression right)

def SidesGiven.ofMembersWith (body : Json → Checked BlockBody) (ms : Members) :
    Checked SidesGiven :=
  SidesGiven.mk <$> field ms "left" Expression.ofJson <*>
    fieldOr none ms "right" (Json.toOption Expression.ofJson) <*>
    fieldOr none ms "body" (Json.toOption body) <*> fieldOr false ms "has_block" Json.toBool

def Relation.ofMembersWith (body : Json → Checked BlockBody) (kind : RelationKind) (ms : Members) :
    Checked Relation :=
  (Prod.mk <$> originOf kind.text ms <*> SidesGiven.ofMembersWith body ms).check fun (o, g) =>
    g.sides.map fun (left, right) => ⟨kind, o, left, right⟩

def Relation.modelsWith (body : Json → Checked BlockBody) (make : Relation → α) :
    List (String × (Members → Checked α)) :=
  RelationKind.all.map fun k => model k.text make (Relation.ofMembersWith body k)

def Element.ofJsonWith (body : Json → Checked BlockBody) : Json → Checked Element :=
  toChoice (Expression.models .expression ++ model "include" .inclusion Include.ofMembers ::
    Relation.modelsWith body .relation)

def BlockBody.ofMembersWith (body : Json → Checked BlockBody) (ms : Members) : Checked BlockBody :=
  (fun o (x, xs) trailingComma => ⟨o, x, xs, trailingComma⟩) <$> originOf "block_body" ms <*>
    field ms "elements" (Json.toNonempty (Element.ofJsonWith body)) <*>
    fieldOr false ms "trailing_comma" Json.toBool

def BlockBody.ofJsonWithin : Nat → Json → Checked BlockBody
  | 0 => toModel fun _ => .fail .model
  | k + 1 => toModel (ofMembersWith (ofJsonWithin k))

def BlockBody.ofJson (j : Json) : Checked BlockBody := ofJsonWithin j.depth j

def Relation.ofMembers : RelationKind → Members → Checked Relation :=
  Relation.ofMembersWith BlockBody.ofJson

def OpenRelation.ofMembers (ms : Members) : Checked OpenRelation :=
  (Prod.mk <$> field ms "kind" Json.toStr <*>
      (Prod.mk <$> Origin.ofMembers ms <*> SidesGiven.ofMembersWith BlockBody.ofJson ms)).check
    fun (kind, o, g) => g.sides.map fun (left, right) => ⟨kind, o, left, right⟩

def FunctionBlock.ofJson : Json → Checked FunctionBlock :=
  toChoice (model "include" .inclusion Include.ofMembers ::
    Relation.modelsWith BlockBody.ofJson .relation)

/-! ### Documents -/

def BlockStatement.ofMembers (ms : Members) : Checked BlockStatement :=
  BlockStatement.mk <$> originOf "statement" ms <*> field ms "block" FunctionBlock.ofJson

def DashComment.ofMembers (ms : Members) : Checked DashComment :=
  DashComment.mk <$> originOf "dash_comment" ms <*> field ms "text" Json.toText

def EmptyStatement.ofMembers (ms : Members) : Checked EmptyStatement :=
  EmptyStatement.mk <$> originOf "empty_statement" ms

def ErrorStatement.ofMembers (ms : Members) : Checked ErrorStatement :=
  ErrorStatement.mk <$> originOf "error" ms <*> field ms "message" Json.toStr <*>
    field ms "text" Json.toText

def Statement.ofJson : Json → Checked Statement :=
  toChoice [model "statement" .block BlockStatement.ofMembers,
    model "dash_comment" .dashComment DashComment.ofMembers,
    model "empty_statement" .empty EmptyStatement.ofMembers,
    model "error" .error ErrorStatement.ofMembers]

def Document.ofMembers (ms : Members) : Checked Document :=
  Document.mk <$> originOf "fgfh_file" ms <*>
    fieldOr [] ms "statements" (Json.toList Statement.ofJson)

def Document.ofText : Text → Checked Document := Json.modelOfText Document.ofMembers

/-- Reads the text that a value is written as. -/
def Document.ofJson (j : Json) : Checked Document := ofText j.layout

def PlainNode.ofMembers (ms : Members) : Checked PlainNode :=
  PlainNode.mk <$> field ms "kind" Json.toStr <*> Origin.ofMembers ms

end RelationNotation
