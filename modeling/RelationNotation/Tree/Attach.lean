import RelationNotation.Tree.Object

/-!
Attaching trivia: each item goes to the deepest node around it. At every node the only child that
may hold an item is the last one that starts at or before it; the search is by halving, so it is
meant for children in source order. What is found out is noted under the identities of nodes. Nodes
never change, so each on the way to an item is rebuilt, below first, by a loop with a stack.
-/

namespace RelationNotation

namespace Trivia

/-- By halving between two indexes, the number of spans that start at or before an offset. -/
def insertionPoint (spans : Array Span) (offset : Int) (low high : Nat) : Nat :=
  if low < high then
    let middle := (low + high) / 2
    if offset < (spans.getD middle default).start.offset then
      insertionPoint spans offset low middle
    else insertionPoint spans offset (middle + 1) high
  else low
termination_by high - low

/-- The index of the child that an item goes on to, given the children's spans. -/
def childIndex (spans : Array Span) (item : Trivia) : Option Nat :=
  match insertionPoint spans item.span.start.offset 0 spans.size with
  | 0 => none
  | i + 1 => if (spans.getD i default).contains item.span then some i else none

end Trivia

/-- The identities of a tree that has been rebuilt. Copies are new objects, and so are two copies of
one object; a copy is known by how many have been made before it. -/
inductive Rebuilt (ι : Type) where
  | kept (identity : ι)
  | copied (identity : ι) (before : Nat)
  deriving DecidableEq

namespace NodeObject
variable {ι : Type}

def spans (n : NodeObject ι) : Array Span := (n.children.map (·.origin.span)).toArray

/-- The child that an item goes on to, given the children's spans. -/
def childAround (spans : Array Span) (item : Trivia) (n : NodeObject ι) : Option (NodeObject ι) :=
  (Trivia.childIndex spans item).bind (n.children[·]?)

theorem mem_children_of_childAround {spans : Array Span} {item : Trivia} {n c : NodeObject ι}
    (h : n.childAround spans item = some c) : c ∈ n.children := by
  obtain ⟨i, -, hi⟩ := Option.bind_eq_some_iff.1 h
  exact List.mem_of_getElem? hi

section
variable [DecidableEq ι]

/-- The spans of the children, made once for each node and looked up from then on. -/
def spansIn (cache : List (ι × Array Span)) (n : NodeObject ι) :
    Array Span × List (ι × Array Span) :=
  match cache.lookup n.identity with
  | some spans => (spans, cache)
  | none => (n.spans, (n.identity, n.spans) :: cache)

/-- The nodes from one down to the deepest that an item goes to. -/
def ownerPath (item : Trivia) (cache : List (ι × Array Span)) (n : NodeObject ι) :
    List (NodeObject ι) × List (ι × Array Span) :=
  match n.spansIn cache with
  | (spans, cache) =>
    match _h : n.childAround spans item with
    | some c =>
      match ownerPath item cache c with
      | (path, cache) => (n :: path, cache)
    | none => ([n], cache)
termination_by sizeOf n
decreasing_by exact sizeOf_lt_of_mem_children (mem_children_of_childAround _h)

/-- What is noted of the nodes of a tree: the spans of children, the items that go to a node, and
which nodes are on the way to an item. -/
structure Notes (ι : Type) where
  cache : List (ι × Array Span) := []
  assigned : List (ι × List Trivia) := []
  dirty : List ι := []

/-- The items that go to a node. -/
def Notes.itemsOf (notes : Notes ι) (identity : ι) : List Trivia :=
  (notes.assigned.lookup identity).getD []

/-- Notes where an item goes. -/
def note (root : NodeObject ι) (notes : Notes ι) (item : Trivia) : Notes ι :=
  match root.ownerPath item notes.cache with
  | (path, cache) =>
    let owner := (path.getLastD root).identity
    { cache
      assigned := (owner, notes.itemsOf owner ++ [item]) :: notes.assigned
      dirty := path.map identity ++ notes.dirty }

/-- A copy of a node, with the copies of its children that there are and its items behind its own
trivia. -/
def copy (notes : Notes ι) (rebuilt : List (ι × NodeObject (Rebuilt ι))) (n : NodeObject ι) :
    NodeObject (Rebuilt ι) :=
  .mk (.copied n.identity rebuilt.length)
    { n.origin with trivia := n.origin.trivia ++ notes.itemsOf n.identity }
    (n.children.map fun c => (rebuilt.lookup c.identity).getD (c.map .kept))

def dirtyChildren (notes : Notes ι) (n : NodeObject ι) : List (NodeObject ι) :=
  n.children.filter fun c => notes.dirty.contains c.identity

/-- What is left to do for the nodes on a stack. -/
noncomputable def work : List (NodeObject ι × Bool) → Nat
  | [] => 0
  | (n, false) :: stack => 2 * sizeOf n + work stack
  | (_, true) :: stack => 1 + work stack

omit [DecidableEq ι] in
theorem work_append (stack stack' : List (NodeObject ι × Bool)) :
    work (stack ++ stack') = work stack + work stack' := by
  induction stack with
  | nil => exact (Nat.zero_add _).symm
  | cons x stack ih =>
    obtain ⟨n, _ | _⟩ := x <;> rw [List.cons_append, work, work, ih, Nat.add_assoc]

theorem work_dirtyChildren_lt (notes : Notes ι) (n : NodeObject ι) :
    work ((n.dirtyChildren notes).reverse.map (·, false)) + 1 < 2 * sizeOf n := by
  have below (cs : List (NodeObject ι)) (p : NodeObject ι → Bool) :
      work ((cs.filter p).reverse.map (·, false)) < 2 * sizeOf cs := by
    induction cs with
    | nil => simp [work]
    | cons c cs ih =>
      rw [List.filter_cons, List.cons.sizeOf_spec]
      split
      · rw [List.reverse_cons, List.map_append, work_append, List.map_singleton, work, work]
        omega
      · omega
  obtain ⟨identity, origin, children⟩ := n
  have := below children fun c => notes.dirty.contains c.identity
  simp only [dirtyChildren, NodeObject.children, mk.sizeOf_spec]
  omega

/-- Rebuilds the nodes on a stack. A node that comes up for the first time is put back below its
dirty children; when it comes up again they have been copied. -/
def rebuild (notes : Notes ι) : List (NodeObject ι × Bool) → List (ι × NodeObject (Rebuilt ι)) →
    List (ι × NodeObject (Rebuilt ι))
  | [], rebuilt => rebuilt
  | (n, false) :: stack, rebuilt =>
    rebuild notes ((n.dirtyChildren notes).reverse.map (·, false) ++ (n, true) :: stack) rebuilt
  | (n, true) :: stack, rebuilt =>
    rebuild notes stack ((n.identity, n.copy notes rebuilt) :: rebuilt)
termination_by stack => work stack
decreasing_by
  · have := n.work_dirtyChildren_lt notes
    rw [work_append, work, work]
    omega
  · rw [work]
    omega

/-- Attaches items to the nodes of a tree. -/
def attach (root : NodeObject ι) (items : List Trivia) : NodeObject (Rebuilt ι) :=
  let notes := items.foldl root.note {}
  if notes.assigned.isEmpty then root.map .kept
  else ((rebuild notes [(root, false)] []).lookup root.identity).getD (root.map .kept)

end

end NodeObject

/-- Attaches items to the nodes of a document, each of which is an object of its own. -/
def Document.attach (d : Document) (items : List Trivia) : Document :=
  d.withOrigins (((Node.document d).objects id).attach items)

end RelationNotation
