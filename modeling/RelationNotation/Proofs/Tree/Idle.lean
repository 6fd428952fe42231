import RelationNotation.Proofs.Tree.Node

/-!
Passes that change nothing. A pass changes a node in its origin and in its children only, so one that
leaves both as they are at every node leaves the tree as it is: `Node.mapOrigins_idle`.
-/

namespace RelationNotation

/-! ### Parts of a tree are known by their nodes -/

theorem StringValue.toNode_injective : Function.Injective StringValue.toNode := by
  rintro (x | x) (y | y) h <;> cases h <;> rfl

theorem IncludeFile.toNode_injective : Function.Injective IncludeFile.toNode := by
  rintro (x | x | x) (y | y | y) h <;> cases h <;> rfl

theorem PointerTerm.toNode_injective : Function.Injective PointerTerm.toNode := by
  rintro (x | x | x) (y | y | y) h <;> cases h <;> rfl

theorem PointerId.toNode_injective : Function.Injective PointerId.toNode := by
  rintro (x | x) (y | y) h <;> cases h <;> rfl

theorem GacStem.toNode_injective : Function.Injective GacStem.toNode := by
  intro x y h
  cases x <;> cases y <;> cases h <;> rfl

theorem Expression.toNode_injective : Function.Injective Expression.toNode := by
  intro x y h
  cases x <;> cases y <;> cases h <;> rfl

theorem Element.toNode_injective : Function.Injective Element.toNode := by
  intro x y h
  cases x with
  | expression x =>
    cases y with
    | expression y => exact congrArg expression (Expression.toNode_injective h)
    | inclusion y | relation y => cases x <;> cases h
  | inclusion x =>
    cases y with
    | expression y => cases y <;> cases h
    | inclusion y => exact congrArg inclusion (Node.inclusion.inj h)
    | relation y => cases h
  | relation x =>
    cases y with
    | expression y => cases y <;> cases h
    | inclusion y => cases h
    | relation y => exact congrArg relation (Node.relation.inj h)

theorem FunctionBlock.toNode_injective : Function.Injective FunctionBlock.toNode := by
  intro x y h
  cases x <;> cases y <;> cases h <;> rfl

theorem Statement.toNode_injective : Function.Injective Statement.toNode := by
  intro x y h
  cases x <;> cases y <;> cases h <;> rfl

/-! ### Children are known by their fields -/

theorem child_injective (field : String) {n m : Node} (h : [(field, n)] = [(field, m)]) : n = m :=
  (Prod.ext_iff.1 (List.cons.inj h).1).2

theorem row_injective {α : Type} (field : String) {toNode : α → Node}
    (h : Function.Injective toNode) : Function.Injective (List.map fun x => (field, toNode x)) :=
  List.map_injective_iff.2 fun _ _ heq => h (Prod.ext_iff.1 heq).2

theorem word_injective {x y : GacString} {p q : Option Pointer}
    (h : ("content", Node.gacString x) :: p.toList.map (fun z => ("pointer", Node.pointer z)) =
      ("content", .gacString y) :: q.toList.map fun z => ("pointer", .pointer z)) :
    x = y ∧ p = q := by
  obtain ⟨content, pointer⟩ := List.cons.inj h
  have pointers := row_injective "pointer" (fun _ _ => Node.pointer.inj) pointer
  refine ⟨Node.gacString.inj (Prod.ext_iff.1 content).2, ?_⟩
  cases p <;> cases q <;> simp_all

theorem RightSide.children_injective : Function.Injective RightSide.children := by
  intro x y h
  cases x with
  | expression x =>
    cases y with
    | expression y =>
      exact congrArg expression (Expression.toNode_injective (child_injective "right" h))
    | emptyBlock => cases h
    | block y => simp [children] at h
  | emptyBlock => cases y <;> first | rfl | cases h
  | block x =>
    cases y with
    | expression y => simp [children] at h
    | emptyBlock => cases h
    | block y => exact congrArg block (Node.blockBody.inj (child_injective "body" h))

theorem sides_injective {x y : Expression} {z w : RightSide}
    (h : ("left", x.toNode) :: z.children = ("left", y.toNode) :: w.children) : x = y ∧ z = w := by
  obtain ⟨left, right⟩ := List.cons.inj h
  exact ⟨Expression.toNode_injective (Prod.ext_iff.1 left).2, RightSide.children_injective right⟩

/-! ### Nodes -/

namespace Node
/-- A pass that leaves the origin and the children of a node alone leaves the node alone. -/
theorem mapOrigins_eq_self {σ : Type} {p : OriginMap σ} {s : σ} {n : Node}
    (horigin : (n.mapOrigins p s).origin = n.origin)
    (hchildren : (n.mapOrigins p s).children = n.children) : n.mapOrigins p s = n := by
  cases n with
  | plain x => exact congrArg (fun o => plain ⟨x.kind, o⟩) horigin
  | identifier x => exact congrArg (fun o => identifier ⟨o, x.text⟩) horigin
  | unicodeString x => exact congrArg (fun o => unicodeString ⟨o, x.text⟩) horigin
  | quotedString x => exact congrArg (fun o => quotedString ⟨o, x.content⟩) horigin
  | number x => exact congrArg (fun o => number ⟨o, x.text, x.isFloat⟩) horigin
  | operator x => exact congrArg (fun o => operator ⟨o, x.symbol⟩) horigin
  | arithmeticOp x => exact congrArg (fun o => arithmeticOp ⟨o, x.symbol⟩) horigin
  | dashComment x => exact congrArg (fun o => dashComment ⟨o, x.text⟩) horigin
  | emptyStatement x => exact congrArg (fun o => emptyStatement ⟨o⟩) horigin
  | errorStatement x => exact congrArg (fun o => errorStatement ⟨o, x.message, x.text⟩) horigin
  | pointerExpression x =>
    obtain ⟨o, first, rest⟩ := x
    obtain ⟨hfirst, hrest⟩ :=
      List.cons.inj (row_injective "expression" PointerTerm.toNode_injective hchildren)
    exact congrArg pointerExpression (congr (congrArg₂ PointerExpression.mk horigin hfirst) hrest)
  | pointer x =>
    have id := PointerId.toNode_injective (child_injective "id" hchildren)
    exact congrArg pointer (congrArg₂ Pointer.mk horigin id)
  | pointerRef x =>
    have id := PointerId.toNode_injective (child_injective "id" hchildren)
    exact congrArg pointerRef (congrArg₂ PointerRef.mk horigin id)
  | fycoide x =>
    have name := StringValue.toNode_injective (child_injective "name" hchildren)
    exact congrArg fycoide (congrArg₂ Fycoide.mk horigin name)
  | typeDesc x =>
    have description := StringValue.toNode_injective (child_injective "description" hchildren)
    exact congrArg typeDesc (congrArg₂ TypeDesc.mk horigin description)
  | gacPrefix x =>
    have name := identifier.inj (child_injective "prefix" hchildren)
    exact congrArg₂ (fun o y => gacPrefix ⟨o, y, x.marker⟩) horigin name
  | gacSuffix x =>
    have name := identifier.inj (child_injective "suffix" hchildren)
    exact congrArg₂ (fun o y => gacSuffix ⟨o, x.marker, y⟩) horigin name
  | gacSynonym x =>
    have name := identifier.inj (child_injective "synonym" hchildren)
    exact congrArg₂ (fun o y => gacSynonym ⟨o, y⟩) horigin name
  | gacNested x =>
    obtain ⟨o, content⟩ := x
    rw [mapOrigins, GacNested.mapOrigins] at horigin hchildren ⊢
    have hcontent := gacString.inj (child_injective "content" hchildren)
    exact congrArg gacNested (congrArg₂ GacNested.mk horigin hcontent)
  | gacString x =>
    obtain ⟨o, first, rest⟩ := x
    rw [mapOrigins, GacString.mapOrigins] at horigin hchildren ⊢
    obtain ⟨hfirst, hrest⟩ :=
      List.cons.inj (row_injective "stems" GacStem.toNode_injective hchildren)
    exact congrArg gacString (congr (congrArg₂ GacString.mk horigin hfirst) hrest)
  | protoGacWord x =>
    obtain ⟨hcontent, hpointer⟩ := word_injective hchildren
    exact congrArg protoGacWord (congr (congrArg₂ ProtoGacWord.mk horigin hcontent) hpointer)
  | stdGacWord x =>
    obtain ⟨hcontent, hpointer⟩ := word_injective hchildren
    exact congrArg stdGacWord (congr (congrArg₂ StdGacWord.mk horigin hcontent) hpointer)
  | blockBody x =>
    obtain ⟨o, first, rest, trailingComma⟩ := x
    rw [mapOrigins, BlockBody.mapOrigins] at horigin hchildren ⊢
    obtain ⟨hfirst, hrest⟩ :=
      List.cons.inj (row_injective "elements" Element.toNode_injective hchildren)
    exact congrArg (fun x => blockBody (x trailingComma))
      (congr (congrArg₂ BlockBody.mk horigin hfirst) hrest)
  | openRelation x =>
    obtain ⟨hleft, hright⟩ := sides_injective hchildren
    exact congrArg openRelation (congr (congrArg₂ (OpenRelation.mk x.kind) horigin hleft) hright)
  | relation x =>
    obtain ⟨kind, o, left, right⟩ := x
    rw [mapOrigins, Relation.mapOrigins] at horigin hchildren ⊢
    obtain ⟨hleft, hright⟩ := sides_injective hchildren
    exact congrArg relation (congr (congrArg₂ (Relation.mk kind) horigin hleft) hright)
  | inclusion x =>
    have file := IncludeFile.toNode_injective (child_injective "file" hchildren)
    exact congrArg inclusion (congrArg₂ Include.mk horigin file)
  | statement x =>
    have block := FunctionBlock.toNode_injective (child_injective "block" hchildren)
    exact congrArg statement (congrArg₂ BlockStatement.mk horigin block)
  | document x =>
    have statements := row_injective "statements" Statement.toNode_injective hchildren
    exact congrArg document (congrArg₂ Document.mk horigin statements)

end Node

/-- Where a pass is in certain states, it leaves nodes as they are. -/
structure OriginMap.Idles {σ : Type} (p : OriginMap σ) (I : Node → σ → Prop) : Prop where
  here : ∀ {n s}, I n s → p.here s n.childSpans n.origin = n.origin
  below : ∀ {n s i c}, I n s → n.children[i]? = some c → I c.2 (p.below s n.childSpans i)

theorem Node.mapOrigins_idle {σ : Type} {p : OriginMap σ} {I : Node → σ → Prop} (idles : p.Idles I)
    {s : σ} {n : Node} (h : I n s) : n.mapOrigins p s = n := by
  refine mapOrigins_eq_self ?_ ?_
  · rw [origin_mapOrigins, idles.here h]
  · rw [children_mapOrigins]
    refine List.ext_getElem (List.length_mapIdx) fun i h₁ h₂ => ?_
    have hc := List.getElem_mem h₂
    rw [List.getElem_mapIdx]
    exact Prod.ext rfl (mapOrigins_idle idles (idles.below h (List.getElem?_eq_getElem h₂)))
termination_by sizeOf n
decreasing_by exact sizeOf_lt_of_mem_children hc

end RelationNotation
