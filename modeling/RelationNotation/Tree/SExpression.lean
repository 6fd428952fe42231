import RelationNotation.Tree.Node

/-!
Trees as s-expressions: the kind of a node, its value in double quotes and its children, each
behind the name of its field. The items of a sequence and the block of a statement stand without a
name. Values are written as they are.
-/

namespace RelationNotation.Node

/-- The fields whose children are written without the field's name. -/
def unlabelledFields : List String := ["stems", "elements", "statements", "block"]

/-- A child with its field's name before it, unless it goes without. -/
def labelled (field sexp : String) : String :=
  if field ∈ unlabelledFields then sexp else field ++ ": " ++ sexp

def sexp (n : Node) : String :=
  let value := n.value?.toList.map fun v => "\"" ++ String.ofList v ++ "\""
  let parts := n.children.attach.map fun c => labelled c.1.1 (sexp c.1.2)
  "(" ++ " ".intercalate (n.kind :: value ++ parts) ++ ")"
termination_by sizeOf n
decreasing_by exact sizeOf_lt_of_mem_children c.2

end RelationNotation.Node
