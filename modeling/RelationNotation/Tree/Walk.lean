import RelationNotation.Tree.Node

/-!
Walking a tree: every node before its children, children in order. `walk` keeps the nodes still to
be visited on a stack; `preorder` is the same order said by recursion.
-/

namespace RelationNotation.Node

def preorder (n : Node) : List Node :=
  n :: n.children.attach.flatMap fun c => preorder c.1.2
termination_by sizeOf n
decreasing_by exact sizeOf_lt_of_mem_children c.2

/-- Visits the node on top of a stack and puts its children in its place. -/
def visit : List Node → List Node
  | [] => []
  | n :: stack => n :: visit (n.children.map (·.2) ++ stack)
termination_by stack => totalSize stack
decreasing_by
  have := totalSize_children_lt n
  rw [totalSize_append, totalSize_cons]
  omega

/-- The nodes of a tree in the order of a traversal with a stack. -/
def walk (n : Node) : List Node := visit [n]

end RelationNotation.Node
