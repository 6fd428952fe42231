import RelationNotation.Tree.Canonical

/-!
Nodes: one view of everything in a syntax tree. A node has a kind, an origin, perhaps a value, and
children, each under the name of a field and in source order. `totalSize_children_lt` states that
the children of a node are together smaller than the node, so that traversals end.
-/

namespace RelationNotation

/-- A node of no particular kind, known by a name only. -/
structure PlainNode where
  kind : String
  origin : Origin

/-- Two sides joined by a relation of any name, without an operator. -/
structure OpenRelation where
  kind : String
  origin : Origin
  left : Expression
  right : RightSide

/-- Anything in a syntax tree. -/
inductive Node where
  | plain (x : PlainNode)
  | identifier (x : Identifier)
  | unicodeString (x : UnicodeString)
  | quotedString (x : QuotedString)
  | number (x : Number)
  | operator (x : Operator)
  | arithmeticOp (x : ArithmeticOp)
  | pointerExpression (x : PointerExpression)
  | pointer (x : Pointer)
  | pointerRef (x : PointerRef)
  | fycoide (x : Fycoide)
  | typeDesc (x : TypeDesc)
  | gacPrefix (x : GacPrefix)
  | gacSuffix (x : GacSuffix)
  | gacSynonym (x : GacSynonym)
  | gacNested (x : GacNested)
  | gacString (x : GacString)
  | protoGacWord (x : ProtoGacWord)
  | stdGacWord (x : StdGacWord)
  | blockBody (x : BlockBody)
  | openRelation (x : OpenRelation)
  | relation (x : Relation)
  | inclusion (x : Include)
  | statement (x : BlockStatement)
  | dashComment (x : DashComment)
  | emptyStatement (x : EmptyStatement)
  | errorStatement (x : ErrorStatement)
  | document (x : Document)

/-! ### The parts of a tree as nodes -/

def StringValue.toNode : StringValue → Node
  | .identifier x => .identifier x
  | .unicodeString x => .unicodeString x

def IncludeFile.toNode : IncludeFile → Node
  | .identifier x => .identifier x
  | .unicodeString x => .unicodeString x
  | .quotedString x => .quotedString x

def PointerTerm.toNode : PointerTerm → Node
  | .number x => .number x
  | .operator x => .operator x
  | .arithmeticOp x => .arithmeticOp x

def PointerId.toNode : PointerId → Node
  | .number x => .number x
  | .expression x => .pointerExpression x

def GacStem.toNode : GacStem → Node
  | .fycoide x => .fycoide x
  | .pointerRef x => .pointerRef x
  | .operator x => .operator x
  | .identifier x => .identifier x
  | .front x => .gacPrefix x
  | .ending x => .gacSuffix x
  | .synonym x => .gacSynonym x
  | .nested x => .gacNested x

def Expression.toNode : Expression → Node
  | .typeDesc x => .typeDesc x
  | .protoGacWord x => .protoGacWord x
  | .stdGacWord x => .stdGacWord x
  | .fycoide x => .fycoide x
  | .pointerRef x => .pointerRef x

def Element.toNode : Element → Node
  | .expression x => x.toNode
  | .inclusion x => .inclusion x
  | .relation x => .relation x

def FunctionBlock.toNode : FunctionBlock → Node
  | .inclusion x => .inclusion x
  | .relation x => .relation x

def Statement.toNode : Statement → Node
  | .block x => .statement x
  | .dashComment x => .dashComment x
  | .empty x => .emptyStatement x
  | .error x => .errorStatement x

/-- The right side of a relation as the children it gives the relation. -/
def RightSide.children : RightSide → List (String × Node)
  | .expression x => [("right", x.toNode)]
  | .emptyBlock => []
  | .block body => [("body", .blockBody body)]

namespace Node

def kind : Node → String
  | .plain x => x.kind
  | .identifier _ => "identifier"
  | .unicodeString _ => "unicode_string"
  | .quotedString _ => "quoted_string"
  | .number _ => "number"
  | .operator _ => "operator"
  | .arithmeticOp _ => "arithmetic_op"
  | .pointerExpression _ => "pointer_expression"
  | .pointer _ => "pointer"
  | .pointerRef _ => "pointer_ref"
  | .fycoide _ => "fycoide"
  | .typeDesc _ => "type_desc"
  | .gacPrefix _ => "gac_prefix"
  | .gacSuffix _ => "gac_suffix"
  | .gacSynonym _ => "gac_synonym"
  | .gacNested _ => "gac_nested"
  | .gacString _ => "gac_string"
  | .protoGacWord _ => "proto_gac_word"
  | .stdGacWord _ => "std_gac_word"
  | .blockBody _ => "block_body"
  | .openRelation x => x.kind
  | .relation x => x.kind.text
  | .inclusion _ => "include"
  | .statement _ => "statement"
  | .dashComment _ => "dash_comment"
  | .emptyStatement _ => "empty_statement"
  | .errorStatement _ => "error"
  | .document _ => "fgfh_file"

def origin : Node → Origin
  | .plain x => x.origin
  | .identifier x => x.origin
  | .unicodeString x => x.origin
  | .quotedString x => x.origin
  | .number x => x.origin
  | .operator x => x.origin
  | .arithmeticOp x => x.origin
  | .pointerExpression x => x.origin
  | .pointer x => x.origin
  | .pointerRef x => x.origin
  | .fycoide x => x.origin
  | .typeDesc x => x.origin
  | .gacPrefix x => x.origin
  | .gacSuffix x => x.origin
  | .gacSynonym x => x.origin
  | .gacNested x => x.origin
  | .gacString x => x.origin
  | .protoGacWord x => x.origin
  | .stdGacWord x => x.origin
  | .blockBody x => x.origin
  | .openRelation x => x.origin
  | .relation x => x.origin
  | .inclusion x => x.origin
  | .statement x => x.origin
  | .dashComment x => x.origin
  | .emptyStatement x => x.origin
  | .errorStatement x => x.origin
  | .document x => x.origin

def span (n : Node) : Span := n.origin.span

def trivia (n : Node) : List Trivia := n.origin.trivia

/-- The children of a node, each under the name of its field, in source order. -/
def children : Node → List (String × Node)
  | .pointerExpression x => x.terms.map fun y => ("expression", y.toNode)
  | .pointer x => [("id", x.id.toNode)]
  | .pointerRef x => [("id", x.id.toNode)]
  | .fycoide x => [("name", x.name.toNode)]
  | .typeDesc x => [("description", x.description.toNode)]
  | .gacPrefix x => [("prefix", .identifier x.name)]
  | .gacSuffix x => [("suffix", .identifier x.name)]
  | .gacSynonym x => [("synonym", .identifier x.name)]
  | .gacNested x => [("content", .gacString x.content)]
  | .gacString x => x.stems.map fun y => ("stems", y.toNode)
  | .protoGacWord x =>
    ("content", .gacString x.content) :: x.pointer.toList.map fun y => ("pointer", .pointer y)
  | .stdGacWord x =>
    ("content", .gacString x.content) :: x.pointer.toList.map fun y => ("pointer", .pointer y)
  | .blockBody x => x.elements.map fun y => ("elements", y.toNode)
  | .openRelation x => ("left", x.left.toNode) :: x.right.children
  | .relation x => ("left", x.left.toNode) :: x.right.children
  | .inclusion x => [("file", x.file.toNode)]
  | .statement x => [("block", x.block.toNode)]
  | .document x => x.statements.map fun y => ("statements", y.toNode)
  | _ => []

def child? (n : Node) (field : String) : Option Node :=
  (n.children.find? fun c => c.1 == field).map (·.2)

/-- The value of a leaf: its text, its symbol or its content, and the message of a mistake. -/
def value? : Node → Option Text
  | .identifier x => some x.text
  | .unicodeString x => some x.text
  | .number x => some x.text
  | .dashComment x => some x.text
  | .operator x => some x.symbol
  | .arithmeticOp x => some x.symbol
  | .quotedString x => some x.content
  | .errorStatement x => some x.message.toList
  | _ => none

def relation? : Node → Option (String × String)
  | .relation x => some (x.kind.operator, x.right.form)
  | .openRelation x => some ("", x.right.form)
  | _ => none

/-- The canonical text of a node; a node of no particular kind has none. -/
def canonical? : Node → Option Text
  | .plain _ => none
  | .identifier x => some x.canonical
  | .unicodeString x => some x.canonical
  | .quotedString x => some x.canonical
  | .number x => some x.canonical
  | .operator x => some x.canonical
  | .arithmeticOp x => some x.canonical
  | .pointerExpression x => some x.canonical
  | .pointer x => some x.canonical
  | .pointerRef x => some x.canonical
  | .fycoide x => some x.canonical
  | .typeDesc x => some x.canonical
  | .gacPrefix x => some x.canonical
  | .gacSuffix x => some x.canonical
  | .gacSynonym x => some x.canonical
  | .gacNested x => some x.canonical
  | .gacString x => some x.canonical
  | .protoGacWord x => some x.canonical
  | .stdGacWord x => some x.canonical
  | .blockBody x => some x.canonical
  | .openRelation x => some (relationText x.left.canonical "" x.right.canonical)
  | .relation x => some x.canonical
  | .inclusion x => some x.canonical
  | .statement x => some x.canonical
  | .dashComment x => some x.canonical
  | .emptyStatement x => some x.canonical
  | .errorStatement x => some x.canonical
  | .document x => some x.canonical

end Node

/-! ### Children are smaller -/

theorem sizeOf_toNode_stringValue (x : StringValue) : sizeOf x.toNode ≤ sizeOf x := by
  cases x <;> simp [StringValue.toNode]

theorem sizeOf_toNode_includeFile (x : IncludeFile) : sizeOf x.toNode ≤ sizeOf x := by
  cases x <;> simp [IncludeFile.toNode]

theorem sizeOf_toNode_pointerTerm (x : PointerTerm) : sizeOf x.toNode ≤ sizeOf x := by
  cases x <;> simp [PointerTerm.toNode]

theorem sizeOf_toNode_pointerId (x : PointerId) : sizeOf x.toNode ≤ sizeOf x := by
  cases x <;> simp [PointerId.toNode]

theorem sizeOf_toNode_gacStem (x : GacStem) : sizeOf x.toNode ≤ sizeOf x := by
  cases x <;> simp [GacStem.toNode]

theorem sizeOf_toNode_expression (x : Expression) : sizeOf x.toNode ≤ sizeOf x := by
  cases x <;> simp [Expression.toNode]

theorem sizeOf_toNode_element (x : Element) : sizeOf x.toNode ≤ sizeOf x := by
  cases x with
  | expression y =>
    have := sizeOf_toNode_expression y
    simp only [Element.toNode, Element.expression.sizeOf_spec]
    omega
  | inclusion y => simp [Element.toNode]
  | relation y => simp [Element.toNode]

theorem sizeOf_toNode_functionBlock (x : FunctionBlock) : sizeOf x.toNode ≤ sizeOf x := by
  cases x <;> simp [FunctionBlock.toNode]

theorem sizeOf_toNode_statement (x : Statement) : sizeOf x.toNode ≤ sizeOf x := by
  cases x <;> simp [Statement.toNode]

noncomputable def totalSize : List Node → Nat
  | [] => 0
  | n :: ns => sizeOf n + totalSize ns

theorem totalSize_nil : totalSize [] = 0 := rfl

theorem totalSize_cons (n : Node) (ns : List Node) :
    totalSize (n :: ns) = sizeOf n + totalSize ns := rfl

theorem totalSize_append (ms ns : List Node) :
    totalSize (ms ++ ns) = totalSize ms + totalSize ns := by
  induction ms with
  | nil => rw [totalSize_nil, Nat.zero_add, List.nil_append]
  | cons m ms ih => rw [List.cons_append, totalSize_cons, ih, totalSize_cons, Nat.add_assoc]

theorem totalSize_map_le {α : Type} [SizeOf α] {f : α → Node} (h : ∀ x, sizeOf (f x) ≤ sizeOf x)
    (xs : List α) : totalSize (xs.map fun x => f x) ≤ sizeOf xs := by
  induction xs with
  | nil => exact Nat.zero_le _
  | cons x xs ih =>
    have := h x
    simp only [List.map_cons, totalSize_cons, List.cons.sizeOf_spec]
    omega

theorem totalSize_toList_le (x : Option Pointer) :
    totalSize (x.toList.map fun y => Node.pointer y) ≤ sizeOf x := by
  cases x with
  | none => exact Nat.zero_le _
  | some y =>
    simp only [Option.toList_some, List.map_cons, List.map_nil, totalSize_cons, totalSize_nil,
      Node.pointer.sizeOf_spec, Option.some.sizeOf_spec]
    omega

theorem totalSize_right_le (x : RightSide) : totalSize (x.children.map (·.2)) ≤ sizeOf x := by
  cases x with
  | expression y =>
    have := sizeOf_toNode_expression y
    simp only [RightSide.children, List.map_cons, List.map_nil, totalSize_cons, totalSize_nil,
      RightSide.expression.sizeOf_spec]
    omega
  | emptyBlock => exact Nat.zero_le _
  | block y =>
    simp only [RightSide.children, List.map_cons, List.map_nil, totalSize_cons, totalSize_nil,
      RightSide.block.sizeOf_spec, Node.blockBody.sizeOf_spec]
    omega

theorem sizeOf_le_totalSize {n : Node} {ns : List Node} (h : n ∈ ns) :
    sizeOf n ≤ totalSize ns := by
  induction ns with
  | nil => simp at h
  | cons m ns ih =>
    rw [totalSize_cons]
    rcases List.mem_cons.1 h with rfl | h
    · omega
    · have := ih h
      omega

theorem totalSize_children_lt (n : Node) : totalSize (n.children.map (·.2)) < sizeOf n := by
  cases n with
  | pointerExpression x =>
    obtain ⟨origin, first, rest⟩ := x
    have := sizeOf_toNode_pointerTerm first
    have := totalSize_map_le sizeOf_toNode_pointerTerm rest
    simp only [Node.children, PointerExpression.terms, totalSize_cons, List.map_map, List.map_cons,
      Function.comp_def, Node.pointerExpression.sizeOf_spec, PointerExpression.mk.sizeOf_spec]
    omega
  | pointer x =>
    obtain ⟨origin, id⟩ := x
    have := sizeOf_toNode_pointerId id
    simp [Node.children, totalSize_cons, totalSize_nil]
    omega
  | pointerRef x =>
    obtain ⟨origin, id⟩ := x
    have := sizeOf_toNode_pointerId id
    simp [Node.children, totalSize_cons, totalSize_nil]
    omega
  | fycoide x =>
    obtain ⟨origin, name⟩ := x
    have := sizeOf_toNode_stringValue name
    simp [Node.children, totalSize_cons, totalSize_nil]
    omega
  | typeDesc x =>
    obtain ⟨origin, description⟩ := x
    have := sizeOf_toNode_stringValue description
    simp [Node.children, totalSize_cons, totalSize_nil]
    omega
  | gacString x =>
    obtain ⟨origin, first, rest⟩ := x
    have := sizeOf_toNode_gacStem first
    have := totalSize_map_le sizeOf_toNode_gacStem rest
    simp only [Node.children, GacString.stems, totalSize_cons, List.map_map, List.map_cons,
      Function.comp_def, Node.gacString.sizeOf_spec, GacString.mk.sizeOf_spec]
    omega
  | protoGacWord x =>
    obtain ⟨origin, content, pointer⟩ := x
    have := totalSize_toList_le pointer
    simp [Node.children, totalSize_cons, Function.comp_def]
    omega
  | stdGacWord x =>
    obtain ⟨origin, content, pointer⟩ := x
    have := totalSize_toList_le pointer
    simp [Node.children, totalSize_cons, Function.comp_def]
    omega
  | blockBody x =>
    obtain ⟨origin, first, rest, trailingComma⟩ := x
    have := sizeOf_toNode_element first
    have := totalSize_map_le sizeOf_toNode_element rest
    simp only [Node.children, BlockBody.elements, totalSize_cons, List.map_map, List.map_cons,
      Function.comp_def, Node.blockBody.sizeOf_spec, BlockBody.mk.sizeOf_spec]
    omega
  | openRelation x =>
    obtain ⟨kind, origin, left, right⟩ := x
    have := sizeOf_toNode_expression left
    have := totalSize_right_le right
    simp [Node.children, totalSize_cons]
    omega
  | relation x =>
    obtain ⟨kind, origin, left, right⟩ := x
    have := sizeOf_toNode_expression left
    have := totalSize_right_le right
    simp [Node.children, totalSize_cons]
    omega
  | inclusion x =>
    obtain ⟨origin, file⟩ := x
    have := sizeOf_toNode_includeFile file
    simp [Node.children, totalSize_cons, totalSize_nil]
    omega
  | statement x =>
    obtain ⟨origin, block⟩ := x
    have := sizeOf_toNode_functionBlock block
    simp [Node.children, totalSize_cons, totalSize_nil]
    omega
  | document x =>
    obtain ⟨origin, statements⟩ := x
    have := totalSize_map_le sizeOf_toNode_statement statements
    simp only [Node.children, List.map_map, Function.comp_def, Node.document.sizeOf_spec,
      Document.mk.sizeOf_spec]
    omega
  | gacPrefix x | gacSuffix x | gacSynonym x | gacNested x =>
    cases x
    simp only [Node.children, List.map_cons, List.map_nil, totalSize_cons, totalSize_nil,
      Node.identifier.sizeOf_spec, Node.gacString.sizeOf_spec, Node.gacPrefix.sizeOf_spec,
      GacPrefix.mk.sizeOf_spec, Node.gacSuffix.sizeOf_spec, GacSuffix.mk.sizeOf_spec,
      Node.gacSynonym.sizeOf_spec, GacSynonym.mk.sizeOf_spec, Node.gacNested.sizeOf_spec,
      GacNested.mk.sizeOf_spec]
    omega
  | _ =>
    simp only [Node.children, List.map_nil, totalSize_nil, Node.plain.sizeOf_spec,
      Node.identifier.sizeOf_spec, Node.unicodeString.sizeOf_spec, Node.quotedString.sizeOf_spec,
      Node.number.sizeOf_spec, Node.operator.sizeOf_spec, Node.arithmeticOp.sizeOf_spec,
      Node.dashComment.sizeOf_spec, Node.emptyStatement.sizeOf_spec,
      Node.errorStatement.sizeOf_spec]
    omega

theorem sizeOf_lt_of_mem_children {n : Node} {c : String × Node} (h : c ∈ n.children) :
    sizeOf c.2 < sizeOf n := by
  have le := sizeOf_le_totalSize (List.mem_map.2 ⟨c, h, rfl⟩ : c.2 ∈ n.children.map (·.2))
  have := totalSize_children_lt n
  omega

end RelationNotation
