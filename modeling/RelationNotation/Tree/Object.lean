import RelationNotation.Tree.Node

/-!
Nodes as objects. Two nodes may be equal and yet be two objects; a tree whose nodes are objects says
of each which one it is, and one object may stand at several places of it. `Node.objects` makes the
nodes of a tree objects, by their paths; `Document.withOrigins` reads a document off objects.
-/

namespace RelationNotation

/-- A node as an object: which one it is, its origin, and the objects that its fields hold. -/
inductive NodeObject (ι : Type) where
  | mk (identity : ι) (origin : Origin) (children : List (NodeObject ι))

namespace NodeObject
variable {ι κ : Type}

def identity : NodeObject ι → ι
  | mk identity _ _ => identity

def origin : NodeObject ι → Origin
  | mk _ origin _ => origin

def children : NodeObject ι → List (NodeObject ι)
  | mk _ _ children => children

theorem sizeOf_lt_of_mem_children {n c : NodeObject ι} (h : c ∈ n.children) :
    sizeOf c < sizeOf n := by
  obtain ⟨identity, origin, children⟩ := n
  have := List.sizeOf_lt_of_mem (show c ∈ children from h)
  simp only [mk.sizeOf_spec]
  omega

/-- The nodes of a tree, each as often as it stands in the tree. -/
def nodes (n : NodeObject ι) : List (NodeObject ι) :=
  n :: n.children.attach.flatMap fun c => nodes c.1
termination_by sizeOf n
decreasing_by exact sizeOf_lt_of_mem_children c.2

/-- Every node stands at one place of the tree. -/
def Distinct (n : NodeObject ι) : Prop := (n.nodes.map identity).Nodup

instance [DecidableEq ι] (n : NodeObject ι) : Decidable n.Distinct :=
  inferInstanceAs (Decidable (List.Nodup _))

def map (f : ι → κ) (n : NodeObject ι) : NodeObject κ :=
  .mk (f n.identity) n.origin (n.children.attach.map fun c => map f c.1)
termination_by sizeOf n
decreasing_by exact sizeOf_lt_of_mem_children c.2

end NodeObject

/-- The nodes of a tree as objects, given which object stands at the end of a path. -/
def Node.objects {ι : Type} (identity : List Nat → ι) (n : Node) : NodeObject ι :=
  .mk (identity []) n.origin
    (n.children.attach.mapIdx fun i c => objects (fun path => identity (i :: path)) c.1.2)
termination_by sizeOf n
decreasing_by exact sizeOf_lt_of_mem_children c.2

/-- The pass that gives every node the origin of an object. -/
def OriginMap.ofObjects {ι : Type} : OriginMap (Option (NodeObject ι)) where
  here n _ _ := (n.map NodeObject.origin).getD default
  below n _ i := n.bind (·.children[i]?)

/-- The document whose nodes have the origins of objects, and are otherwise those of another
document. -/
def Document.withOrigins {ι : Type} (d : Document) (n : NodeObject ι) : Document :=
  d.mapOrigins .ofObjects (some n)

end RelationNotation
