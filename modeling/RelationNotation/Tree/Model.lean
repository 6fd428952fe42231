import RelationNotation.Tree.Decode
import RelationNotation.Tree.SExpression

/-!
Models: everything that may be read from JSON by name, nodes of every kind as well as spans, trivia
and diagnostics.
-/

namespace RelationNotation

/-- What a model describes. -/
inductive Modelled where
  | node (x : Node)
  | span (x : Span)
  | trivia (x : Trivia)
  | diagnostic (x : Diagnostic)

/-- Everything that may be read from JSON. -/
inductive Model where
  | span | trivia | diagnostic | plain | identifier | unicodeString | quotedString | number
  | operator | arithmeticOp | pointerExpression | pointer | pointerRef | fycoide | typeDesc
  | gacPrefix | gacSuffix | gacSynonym | gacNested | gacString | protoGacWord | stdGacWord
  | blockBody | openRelation | relation (kind : RelationKind) | inclusion | statement
  | dashComment | emptyStatement | errorStatement | document
  deriving DecidableEq

namespace Model

def named : List (String × Model) :=
  [("Span", .span), ("Trivia", .trivia), ("Diagnostic", .diagnostic), ("SyntaxNode", .plain),
    ("Identifier", .identifier), ("UnicodeString", .unicodeString),
    ("QuotedString", .quotedString), ("Number", .number), ("Operator", .operator),
    ("ArithmeticOp", .arithmeticOp), ("PointerExpression", .pointerExpression),
    ("Pointer", .pointer), ("PointerRef", .pointerRef), ("Fycoide", .fycoide),
    ("TypeDesc", .typeDesc), ("GacPrefix", .gacPrefix), ("GacSuffix", .gacSuffix),
    ("GacSynonym", .gacSynonym), ("GacNested", .gacNested), ("GacString", .gacString),
    ("ProtoGacWord", .protoGacWord), ("StdGacWord", .stdGacWord), ("BlockBody", .blockBody),
    ("Relation", .openRelation), ("Shape", .relation .shape), ("Hold", .relation .hold),
    ("Shift", .relation .shift), ("Flow", .relation .flow), ("Melt", .relation .melt),
    ("Include", .inclusion), ("Statement", .statement), ("DashComment", .dashComment),
    ("EmptyStatement", .emptyStatement), ("ErrorStatement", .errorStatement), ("File", .document)]

def ofName? (name : String) : Option Model := (named.find? fun m => m.1 == name).map (·.2)

def ofMembers : Model → Members → Checked Modelled
  | .span, ms => .span <$> Span.ofMembers ms
  | .trivia, ms => .trivia <$> Trivia.ofMembers ms
  | .diagnostic, ms => .diagnostic <$> Diagnostic.ofMembers ms
  | .plain, ms => (.node ∘ .plain) <$> PlainNode.ofMembers ms
  | .identifier, ms => (.node ∘ .identifier) <$> Identifier.ofMembers ms
  | .unicodeString, ms => (.node ∘ .unicodeString) <$> UnicodeString.ofMembers ms
  | .quotedString, ms => (.node ∘ .quotedString) <$> QuotedString.ofMembers ms
  | .number, ms => (.node ∘ .number) <$> Number.ofMembers ms
  | .operator, ms => (.node ∘ .operator) <$> Operator.ofMembers ms
  | .arithmeticOp, ms => (.node ∘ .arithmeticOp) <$> ArithmeticOp.ofMembers ms
  | .pointerExpression, ms => (.node ∘ .pointerExpression) <$> PointerExpression.ofMembers ms
  | .pointer, ms => (.node ∘ .pointer) <$> Pointer.ofMembers ms
  | .pointerRef, ms => (.node ∘ .pointerRef) <$> PointerRef.ofMembers ms
  | .fycoide, ms => (.node ∘ .fycoide) <$> Fycoide.ofMembers ms
  | .typeDesc, ms => (.node ∘ .typeDesc) <$> TypeDesc.ofMembers ms
  | .gacPrefix, ms => (.node ∘ .gacPrefix) <$> GacPrefix.ofMembers ms
  | .gacSuffix, ms => (.node ∘ .gacSuffix) <$> GacSuffix.ofMembers ms
  | .gacSynonym, ms => (.node ∘ .gacSynonym) <$> GacSynonym.ofMembers ms
  | .gacNested, ms => (.node ∘ .gacNested) <$> GacNested.ofMembers ms
  | .gacString, ms => (.node ∘ .gacString) <$> GacString.ofJson (.object ms)
  | .protoGacWord, ms => (.node ∘ .protoGacWord) <$> ProtoGacWord.ofMembers ms
  | .stdGacWord, ms => (.node ∘ .stdGacWord) <$> StdGacWord.ofMembers ms
  | .blockBody, ms => (.node ∘ .blockBody) <$> BlockBody.ofJson (.object ms)
  | .openRelation, ms => (.node ∘ .openRelation) <$> OpenRelation.ofMembers ms
  | .relation kind, ms => (.node ∘ .relation) <$> Relation.ofMembers kind ms
  | .inclusion, ms => (.node ∘ .inclusion) <$> Include.ofMembers ms
  | .statement, ms => (.node ∘ .statement) <$> BlockStatement.ofMembers ms
  | .dashComment, ms => (.node ∘ .dashComment) <$> DashComment.ofMembers ms
  | .emptyStatement, ms => (.node ∘ .emptyStatement) <$> EmptyStatement.ofMembers ms
  | .errorStatement, ms => (.node ∘ .errorStatement) <$> ErrorStatement.ofMembers ms
  | .document, ms => (.node ∘ .document) <$> Document.ofMembers ms

def ofText (m : Model) : Text → Checked Modelled := Json.modelOfText m.ofMembers

/-- Reads the text that a value is written as. -/
def ofJson (m : Model) (j : Json) : Checked Modelled := m.ofText j.layout

end Model

namespace Modelled

def toJson : Modelled → Json
  | .node x => x.toJson
  | .span x => x.toJson
  | .trivia x => x.toJson
  | .diagnostic x => x.toJson

end Modelled

end RelationNotation
