import Mathlib.Data.List.Basic
import RelationNotation.Proofs.Tree.Pass
import RelationNotation.Tree.Walk

/-!
Nodes and passes. Seen as nodes, a pass is one rule for all kinds: it changes the origin of a node
and goes on to each child with the state for its index (`origin_mapOrigins`,
`children_mapOrigins`). A node of a tree is known by its path, the indexes of the children that
lead to it; the walk over a tree visits the nodes that have one (`mem_walk_iff`).
-/

namespace RelationNotation

/-! ### Origins of the parts of a tree -/

@[simp] theorem StringValue.origin_toNode (x : StringValue) : x.toNode.origin = x.origin := by
  cases x <;> rfl

@[simp] theorem IncludeFile.origin_toNode (x : IncludeFile) : x.toNode.origin = x.origin := by
  cases x <;> rfl

@[simp] theorem PointerTerm.origin_toNode (x : PointerTerm) : x.toNode.origin = x.origin := by
  cases x <;> rfl

@[simp] theorem PointerId.origin_toNode (x : PointerId) : x.toNode.origin = x.origin := by
  cases x <;> rfl

@[simp] theorem GacStem.origin_toNode (x : GacStem) : x.toNode.origin = x.origin := by
  cases x <;> rfl

@[simp] theorem Expression.origin_toNode (x : Expression) : x.toNode.origin = x.origin := by
  cases x <;> rfl

@[simp] theorem Element.origin_toNode (x : Element) : x.toNode.origin = x.origin := by
  cases x with
  | expression x => exact x.origin_toNode
  | inclusion x => rfl
  | relation x => rfl

@[simp] theorem FunctionBlock.origin_toNode (x : FunctionBlock) : x.toNode.origin = x.origin := by
  cases x <;> rfl

@[simp] theorem Statement.origin_toNode (x : Statement) : x.toNode.origin = x.origin := by
  cases x <;> rfl

/-- The spans of a right side are those of the children it gives. -/
theorem RightSide.spans_children (x : RightSide) :
    x.children.map (fun c => c.2.span) = x.spans := by
  cases x with
  | expression x => exact congrArg (fun o : Origin => [o.span]) x.origin_toNode
  | emptyBlock => rfl
  | block body => rfl

/-! ### Passes over nodes -/

section
variable {σ : Type} (p : OriginMap σ)

/-- Does with a node what the pass does with its kind. -/
def Node.mapOrigins (s : σ) : Node → Node
  | .plain x => .plain { x with origin := p.leaf s x.origin }
  | .identifier x => .identifier (x.mapOrigins p s)
  | .unicodeString x => .unicodeString (x.mapOrigins p s)
  | .quotedString x => .quotedString (x.mapOrigins p s)
  | .number x => .number (x.mapOrigins p s)
  | .operator x => .operator (x.mapOrigins p s)
  | .arithmeticOp x => .arithmeticOp (x.mapOrigins p s)
  | .pointerExpression x => .pointerExpression (x.mapOrigins p s)
  | .pointer x => .pointer (x.mapOrigins p s)
  | .pointerRef x => .pointerRef (x.mapOrigins p s)
  | .fycoide x => .fycoide (x.mapOrigins p s)
  | .typeDesc x => .typeDesc (x.mapOrigins p s)
  | .gacPrefix x => .gacPrefix (x.mapOrigins p s)
  | .gacSuffix x => .gacSuffix (x.mapOrigins p s)
  | .gacSynonym x => .gacSynonym (x.mapOrigins p s)
  | .gacNested x => .gacNested (x.mapOrigins p s)
  | .gacString x => .gacString (x.mapOrigins p s)
  | .protoGacWord x => .protoGacWord (x.mapOrigins p s)
  | .stdGacWord x => .stdGacWord (x.mapOrigins p s)
  | .blockBody x => .blockBody (x.mapOrigins p s)
  | .openRelation x =>
    let spans := x.left.origin.span :: x.right.spans
    .openRelation ⟨x.kind, p.here s spans x.origin, x.left.mapOrigins p (p.below s spans 0),
      x.right.mapOrigins p (p.below s spans 1)⟩
  | .relation x => .relation (x.mapOrigins p s)
  | .inclusion x => .inclusion (x.mapOrigins p s)
  | .statement x => .statement (x.mapOrigins p s)
  | .dashComment x => .dashComment (x.mapOrigins p s)
  | .emptyStatement x => .emptyStatement (x.mapOrigins p s)
  | .errorStatement x => .errorStatement (x.mapOrigins p s)
  | .document x => .document (x.mapOrigins p s)

/-! #### The parts of a tree -/

theorem StringValue.toNode_mapOrigins (s : σ) (x : StringValue) :
    (x.mapOrigins p s).toNode = x.toNode.mapOrigins p s := by
  cases x <;> rfl

theorem IncludeFile.toNode_mapOrigins (s : σ) (x : IncludeFile) :
    (x.mapOrigins p s).toNode = x.toNode.mapOrigins p s := by
  cases x <;> rfl

theorem PointerTerm.toNode_mapOrigins (s : σ) (x : PointerTerm) :
    (x.mapOrigins p s).toNode = x.toNode.mapOrigins p s := by
  cases x <;> rfl

theorem PointerId.toNode_mapOrigins (s : σ) (x : PointerId) :
    (x.mapOrigins p s).toNode = x.toNode.mapOrigins p s := by
  cases x <;> rfl

theorem GacStem.toNode_mapOrigins (s : σ) (x : GacStem) :
    (x.mapOrigins p s).toNode = x.toNode.mapOrigins p s := by
  cases x <;> rw [GacStem.mapOrigins] <;> rfl

theorem Expression.toNode_mapOrigins (s : σ) (x : Expression) :
    (x.mapOrigins p s).toNode = x.toNode.mapOrigins p s := by
  cases x <;> rfl

theorem Element.toNode_mapOrigins (s : σ) (x : Element) :
    (x.mapOrigins p s).toNode = x.toNode.mapOrigins p s := by
  cases x with
  | expression x =>
    rw [Element.mapOrigins]
    exact x.toNode_mapOrigins p s
  | inclusion x => rw [Element.mapOrigins]; rfl
  | relation x => rw [Element.mapOrigins]; rfl

theorem FunctionBlock.toNode_mapOrigins (s : σ) (x : FunctionBlock) :
    (x.mapOrigins p s).toNode = x.toNode.mapOrigins p s := by
  cases x <;> rfl

theorem Statement.toNode_mapOrigins (s : σ) (x : Statement) :
    (x.mapOrigins p s).toNode = x.toNode.mapOrigins p s := by
  cases x <;> rfl

/-- The children of a relation are its left side and those of its right side. -/
theorem RightSide.children_behind (s : σ) (spans : List Span) (left : Expression)
    (x : RightSide) :
    ("left", (left.mapOrigins p (p.below s spans 0)).toNode) ::
        (x.mapOrigins p (p.below s spans 1)).children =
      (("left", left.toNode) :: x.children).mapIdx fun i c =>
        (c.1, c.2.mapOrigins p (p.below s spans i)) := by
  rw [left.toNode_mapOrigins]
  cases x with
  | expression x =>
    rw [RightSide.mapOrigins, RightSide.children, x.toNode_mapOrigins]
    rfl
  | emptyBlock => rw [RightSide.mapOrigins]; rfl
  | block body => rw [RightSide.mapOrigins]; rfl

/-! #### Rows of children -/

theorem PointerTerm.mapListOrigins_eq_mapIdx (s : σ) (spans : List Span) (i : Nat)
    (xs : List PointerTerm) : PointerTerm.mapListOrigins p s spans i xs =
      xs.mapIdx fun j x => x.mapOrigins p (p.below s spans (j + i)) := by
  induction xs generalizing i with
  | nil => rfl
  | cons x xs ih => simp [PointerTerm.mapListOrigins, ih, Nat.add_assoc, Nat.add_comm 1]

theorem GacStem.mapListOrigins_eq_mapIdx (s : σ) (spans : List Span) (i : Nat)
    (xs : List GacStem) : GacStem.mapListOrigins p s spans i xs =
      xs.mapIdx fun j x => x.mapOrigins p (p.below s spans (j + i)) := by
  induction xs generalizing i with
  | nil => rw [GacStem.mapListOrigins]; rfl
  | cons x xs ih => simp [GacStem.mapListOrigins, ih, Nat.add_assoc, Nat.add_comm 1]

theorem Element.mapListOrigins_eq_mapIdx (s : σ) (spans : List Span) (i : Nat)
    (xs : List Element) : Element.mapListOrigins p s spans i xs =
      xs.mapIdx fun j x => x.mapOrigins p (p.below s spans (j + i)) := by
  induction xs generalizing i with
  | nil => rw [Element.mapListOrigins]; rfl
  | cons x xs ih => simp [Element.mapListOrigins, ih, Nat.add_assoc, Nat.add_comm 1]

theorem PointerExpression.terms_mapOrigins (s : σ) (x : PointerExpression) :
    (x.mapOrigins p s).terms = x.terms.mapIdx fun i y =>
      y.mapOrigins p (p.below s (x.terms.map (·.origin.span)) i) := by
  rw [terms, terms, List.mapIdx_cons]
  exact congrArg (List.cons _) (PointerTerm.mapListOrigins_eq_mapIdx p s _ 1 x.rest)

theorem GacString.stems_mapOrigins (s : σ) (x : GacString) :
    (x.mapOrigins p s).stems = x.stems.mapIdx fun i y =>
      y.mapOrigins p (p.below s (x.stems.map (·.origin.span)) i) := by
  obtain ⟨origin, first, rest⟩ := x
  rw [GacString.mapOrigins, stems, stems, List.mapIdx_cons]
  exact congrArg (List.cons _) (GacStem.mapListOrigins_eq_mapIdx p s _ 1 rest)

theorem BlockBody.elements_mapOrigins (s : σ) (x : BlockBody) :
    (x.mapOrigins p s).elements = x.elements.mapIdx fun i y =>
      y.mapOrigins p (p.below s (x.elements.map (·.origin.span)) i) := by
  obtain ⟨origin, first, rest, trailingComma⟩ := x
  rw [BlockBody.mapOrigins, elements, elements, List.mapIdx_cons]
  exact congrArg (List.cons _) (Element.mapListOrigins_eq_mapIdx p s _ 1 rest)

end

namespace Node

/-- The spans of the children of a node. -/
def childSpans (n : Node) : List Span := n.children.map (·.2.span)

theorem childSpans_row {α : Type} (field : String) {toNode : α → Node} {origin : α → Origin}
    (h : ∀ x, (toNode x).origin = origin x) (xs : List α) :
    (xs.map fun x => (field, toNode x)).map (·.2.span) = xs.map fun x => (origin x).span := by
  simp [span, Function.comp_def, h]

theorem childSpans_pointerExpression (x : PointerExpression) :
    childSpans (.pointerExpression x) = x.terms.map (·.origin.span) :=
  childSpans_row "expression" PointerTerm.origin_toNode x.terms

theorem childSpans_pointer (x : Pointer) :
    childSpans (.pointer x) = [x.id.origin.span] :=
  congrArg (fun o : Origin => [o.span]) x.id.origin_toNode

theorem childSpans_pointerRef (x : PointerRef) :
    childSpans (.pointerRef x) = [x.id.origin.span] :=
  congrArg (fun o : Origin => [o.span]) x.id.origin_toNode

theorem childSpans_fycoide (x : Fycoide) :
    childSpans (.fycoide x) = [x.name.origin.span] :=
  congrArg (fun o : Origin => [o.span]) x.name.origin_toNode

theorem childSpans_typeDesc (x : TypeDesc) :
    childSpans (.typeDesc x) = [x.description.origin.span] :=
  congrArg (fun o : Origin => [o.span]) x.description.origin_toNode

theorem childSpans_gacString (x : GacString) :
    childSpans (.gacString x) = x.stems.map (·.origin.span) :=
  childSpans_row "stems" GacStem.origin_toNode x.stems

theorem childSpans_pointers (x : Option Pointer) :
    (x.toList.map fun y => ("pointer", Node.pointer y)).map (·.2.span) =
      x.toList.map (·.origin.span) :=
  childSpans_row "pointer" (fun _ => rfl) x.toList

theorem childSpans_protoGacWord (x : ProtoGacWord) :
    childSpans (.protoGacWord x) = gacWordSpans x.content x.pointer :=
  congrArg (x.content.origin.span :: ·) (childSpans_pointers x.pointer)

theorem childSpans_stdGacWord (x : StdGacWord) :
    childSpans (.stdGacWord x) = gacWordSpans x.content x.pointer :=
  congrArg (x.content.origin.span :: ·) (childSpans_pointers x.pointer)

theorem childSpans_blockBody (x : BlockBody) :
    childSpans (.blockBody x) = x.elements.map (·.origin.span) :=
  childSpans_row "elements" Element.origin_toNode x.elements

theorem childSpans_openRelation (x : OpenRelation) :
    childSpans (.openRelation x) = x.left.origin.span :: x.right.spans :=
  congrArg₂ (fun (o : Origin) spans => o.span :: spans) x.left.origin_toNode x.right.spans_children

theorem childSpans_relation (x : Relation) :
    childSpans (.relation x) = x.left.origin.span :: x.right.spans :=
  congrArg₂ (fun (o : Origin) spans => o.span :: spans) x.left.origin_toNode x.right.spans_children

theorem childSpans_inclusion (x : Include) :
    childSpans (.inclusion x) = [x.file.origin.span] :=
  congrArg (fun o : Origin => [o.span]) x.file.origin_toNode

theorem childSpans_statement (x : BlockStatement) :
    childSpans (.statement x) = [x.block.origin.span] :=
  congrArg (fun o : Origin => [o.span]) x.block.origin_toNode

theorem childSpans_document (x : Document) :
    childSpans (.document x) = x.statements.map (·.origin.span) :=
  childSpans_row "statements" Statement.origin_toNode x.statements

section
variable {σ : Type} (p : OriginMap σ)

/-- A pass sees at each node the spans of the node's children. -/
theorem origin_mapOrigins (s : σ) (n : Node) :
    (n.mapOrigins p s).origin = p.here s n.childSpans n.origin := by
  cases n with
  | pointerExpression x => rw [childSpans_pointerExpression]; rfl
  | pointer x => rw [childSpans_pointer]; rfl
  | pointerRef x => rw [childSpans_pointerRef]; rfl
  | fycoide x => rw [childSpans_fycoide]; rfl
  | typeDesc x => rw [childSpans_typeDesc]; rfl
  | gacNested x =>
    obtain ⟨origin, content⟩ := x
    rw [mapOrigins, GacNested.mapOrigins]
    rfl
  | gacString x =>
    rw [childSpans_gacString]
    obtain ⟨origin, first, rest⟩ := x
    rw [mapOrigins, GacString.mapOrigins]
    rfl
  | protoGacWord x => rw [childSpans_protoGacWord]; rfl
  | stdGacWord x => rw [childSpans_stdGacWord]; rfl
  | blockBody x =>
    rw [childSpans_blockBody]
    obtain ⟨origin, first, rest, trailingComma⟩ := x
    rw [mapOrigins, BlockBody.mapOrigins]
    rfl
  | openRelation x => rw [childSpans_openRelation]; rfl
  | relation x =>
    rw [childSpans_relation]
    obtain ⟨kind, origin, left, right⟩ := x
    rw [mapOrigins, Relation.mapOrigins]
    rfl
  | inclusion x => rw [childSpans_inclusion]; rfl
  | statement x => rw [childSpans_statement]; rfl
  | document x => rw [childSpans_document]; rfl
  | _ => rfl

theorem children_row {α : Type} (field : String) {toNode : α → Node} {f : σ → α → α}
    (h : ∀ s x, toNode (f s x) = (toNode x).mapOrigins p s) (g : Nat → σ) (xs : List α) :
    (xs.mapIdx fun i x => f (g i) x).map (fun x => (field, toNode x)) =
      (xs.map fun x => (field, toNode x)).mapIdx fun i c => (c.1, c.2.mapOrigins p (g i)) := by
  apply List.ext_getElem?
  intro i
  simp [h, Function.comp_def]

/-- A pass goes on to each child with the state for the child's index. -/
theorem children_mapOrigins (s : σ) (n : Node) :
    (n.mapOrigins p s).children =
      n.children.mapIdx fun i c => (c.1, c.2.mapOrigins p (p.below s n.childSpans i)) := by
  cases n with
  | pointerExpression x =>
    rw [childSpans_pointerExpression]
    refine Eq.trans ?_ (children_row p "expression" (PointerTerm.toNode_mapOrigins p) _ x.terms)
    exact congrArg (List.map _) (x.terms_mapOrigins p s)
  | pointer x =>
    rw [childSpans_pointer]
    exact congrArg (fun n => [("id", n)]) (x.id.toNode_mapOrigins p _)
  | pointerRef x =>
    rw [childSpans_pointerRef]
    exact congrArg (fun n => [("id", n)]) (x.id.toNode_mapOrigins p _)
  | fycoide x =>
    rw [childSpans_fycoide]
    exact congrArg (fun n => [("name", n)]) (x.name.toNode_mapOrigins p _)
  | typeDesc x =>
    rw [childSpans_typeDesc]
    exact congrArg (fun n => [("description", n)]) (x.description.toNode_mapOrigins p _)
  | gacNested x =>
    obtain ⟨origin, content⟩ := x
    rw [mapOrigins, GacNested.mapOrigins]
    rfl
  | gacString x =>
    rw [childSpans_gacString]
    refine Eq.trans ?_ (children_row p "stems" (GacStem.toNode_mapOrigins p) _ x.stems)
    exact congrArg (List.map _) (x.stems_mapOrigins p s)
  | protoGacWord x =>
    rw [childSpans_protoGacWord]
    obtain ⟨origin, content, _ | pointer⟩ := x <;> rfl
  | stdGacWord x =>
    rw [childSpans_stdGacWord]
    obtain ⟨origin, content, _ | pointer⟩ := x <;> rfl
  | blockBody x =>
    rw [childSpans_blockBody]
    refine Eq.trans ?_ (children_row p "elements" (Element.toNode_mapOrigins p) _ x.elements)
    exact congrArg (List.map _) (x.elements_mapOrigins p s)
  | openRelation x =>
    rw [childSpans_openRelation]
    exact x.right.children_behind p s _ x.left
  | relation x =>
    rw [childSpans_relation]
    obtain ⟨kind, origin, left, right⟩ := x
    rw [mapOrigins, Relation.mapOrigins]
    exact right.children_behind p s _ left
  | inclusion x =>
    rw [childSpans_inclusion]
    exact congrArg (fun n => [("file", n)]) (x.file.toNode_mapOrigins p _)
  | statement x =>
    rw [childSpans_statement]
    exact congrArg (fun n => [("block", n)]) (x.block.toNode_mapOrigins p _)
  | document x =>
    rw [childSpans_document]
    exact children_row p "statements" (Statement.toNode_mapOrigins p) _ x.statements
  | _ => rfl

/-- A pass that changes every span by one function does so at every node. -/
theorem span_mapOrigins {φ : Span → Span} (hp : p.SpansBy φ) (s : σ) (n : Node) :
    (n.mapOrigins p s).span = φ n.span := by
  rw [span, origin_mapOrigins]
  exact hp s n.childSpans n.origin

theorem childSpans_mapOrigins {φ : Span → Span} (hp : p.SpansBy φ) (s : σ) (n : Node) :
    (n.mapOrigins p s).childSpans = n.childSpans.map φ := by
  rw [childSpans, children_mapOrigins, childSpans]
  apply List.ext_getElem (by simp)
  intro i h₁ h₂
  simp [span_mapOrigins p hp]

end

/-! ### Paths -/

/-- The node that a path of child indexes leads to. -/
def at? (n : Node) : List Nat → Option Node
  | [] => some n
  | i :: path => n.children[i]?.bind fun c => c.2.at? path

@[simp] theorem at?_nil (n : Node) : n.at? [] = some n := rfl

theorem at?_cons_eq_some_iff {n m : Node} {i : Nat} {path : List Nat} :
    n.at? (i :: path) = some m ↔ ∃ c, n.children[i]? = some c ∧ c.2.at? path = some m :=
  Option.bind_eq_some_iff

theorem preorder_eq (n : Node) : n.preorder = n :: n.children.flatMap (·.2.preorder) := by
  rw [preorder]
  conv_rhs => rw [← n.children.attach_map_subtype_val, List.flatMap_map]

theorem visit_eq_flatMap (stack : List Node) : visit stack = stack.flatMap preorder := by
  fun_induction visit stack with
  | case1 => rfl
  | case2 n stack ih =>
    rw [ih, List.flatMap_append, List.flatMap_map, List.flatMap_cons, preorder_eq]
    rfl

/-- The walk over a tree visits exactly the nodes that have a path. -/
theorem mem_walk_iff {n m : Node} : m ∈ n.walk ↔ ∃ path, n.at? path = some m := by
  rw [walk, visit_eq_flatMap, List.flatMap_singleton]
  constructor
  · intro h
    fun_induction preorder n with
    | case1 n ih =>
      rcases List.mem_cons.1 h with rfl | h
      · exact ⟨[], rfl⟩
      · obtain ⟨⟨c, hc⟩, -, hm⟩ := List.mem_flatMap.1 h
        obtain ⟨i, hi⟩ := List.mem_iff_getElem?.1 hc
        obtain ⟨path, hpath⟩ := ih ⟨c, hc⟩ hm
        exact ⟨i :: path, at?_cons_eq_some_iff.2 ⟨c, hi, hpath⟩⟩
  · rintro ⟨path, hpath⟩
    induction path generalizing n with
    | nil =>
      obtain rfl := Option.some.inj hpath
      rw [preorder_eq]
      exact List.mem_cons_self
    | cons i path ih =>
      obtain ⟨c, hc, hm⟩ := at?_cons_eq_some_iff.1 hpath
      rw [preorder_eq]
      exact List.mem_cons_of_mem _ (List.mem_flatMap.2 ⟨c, List.mem_of_getElem? hc, ih hm⟩)

theorem mem_walk_self (n : Node) : n ∈ n.walk := mem_walk_iff.2 ⟨[], rfl⟩

theorem mem_walk_of_mem_children {n m : Node} {c : String × Node} (hc : c ∈ n.children)
    (hm : m ∈ c.2.walk) : m ∈ n.walk := by
  obtain ⟨i, hi⟩ := List.mem_iff_getElem?.1 hc
  obtain ⟨path, hpath⟩ := mem_walk_iff.1 hm
  exact mem_walk_iff.2 ⟨i :: path, at?_cons_eq_some_iff.2 ⟨c, hi, hpath⟩⟩

theorem mem_walk_cases {n m : Node} (h : m ∈ n.walk) :
    m = n ∨ ∃ c ∈ n.children, m ∈ c.2.walk := by
  obtain ⟨path, hpath⟩ := mem_walk_iff.1 h
  cases path with
  | nil => exact .inl (Option.some.inj hpath).symm
  | cons i path =>
    obtain ⟨c, hc, hm⟩ := at?_cons_eq_some_iff.1 hpath
    exact .inr ⟨c, List.mem_of_getElem? hc, mem_walk_iff.2 ⟨path, hm⟩⟩

/-- A pass does the same with a node however the node is reached, from some state. -/
theorem at?_mapOrigins {σ : Type} (p : OriginMap σ) (s : σ) (n : Node) (path : List Nat) :
    ∃ t, (n.mapOrigins p s).at? path = (n.at? path).map (mapOrigins p t) := by
  induction path generalizing n s with
  | nil => exact ⟨s, rfl⟩
  | cons i path ih =>
    rw [at?, at?, children_mapOrigins, List.getElem?_mapIdx]
    cases n.children[i]? with
    | none => exact ⟨s, rfl⟩
    | some c => exact ih (p.below s n.childSpans i) c.2

/-! ### Orderly trees -/

/-- A node lies around its children, which stand in source order and do not reach into one
another. -/
structure Orderly (n : Node) : Prop where
  proper : n.span.start.offset ≤ n.span.stop.offset
  within : ∀ c ∈ n.children, n.span.contains c.2.span
  apart : n.children.Pairwise fun c e => c.2.span.stop.offset ≤ e.2.span.start.offset

/-- Whether a node is orderly depends on spans only. -/
theorem orderly_iff {n : Node} : n.Orderly ↔ n.span.start.offset ≤ n.span.stop.offset ∧
    (∀ s ∈ n.childSpans, n.span.contains s) ∧
    n.childSpans.Pairwise fun s t => s.stop.offset ≤ t.start.offset := by
  rw [childSpans, List.forall_mem_map, List.pairwise_map]
  exact ⟨fun h => ⟨h.proper, h.within, h.apart⟩, fun ⟨proper, within, apart⟩ =>
    ⟨proper, within, apart⟩⟩

instance (n : Node) : Decidable n.Orderly := decidable_of_iff _ orderly_iff.symm

end Node

end RelationNotation
