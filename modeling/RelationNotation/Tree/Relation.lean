import RelationNotation.Tree.Expression

/-!
Relations and includes. A relation joins an expression to another expression, or to a block in
braces whose body is one or more elements; an element is an expression, an include or a relation.
-/

namespace RelationNotation

/-- `#[file]`. -/
structure Include where
  origin : Origin
  file : IncludeFile

/-- The five relations. -/
inductive RelationKind where
  | shape | hold | shift | flow | melt
  deriving DecidableEq, Inhabited

namespace RelationKind

def all : List RelationKind := [.shape, .hold, .shift, .flow, .melt]

def text : RelationKind → String
  | .shape => "shape"
  | .hold => "hold"
  | .shift => "shift"
  | .flow => "flow"
  | .melt => "melt"

def operator : RelationKind → String
  | .shape => "::"
  | .hold => "<-"
  | .shift => "->"
  | .flow => ">>"
  | .melt => "@>"

end RelationKind

mutual

/-- Two sides joined by one of the five relations. -/
structure Relation where
  kind : RelationKind
  origin : Origin
  left : Expression
  right : RightSide

/-- The right side of a relation: an expression in the pure form, a body or nothing between braces
in the block form. -/
inductive RightSide where
  | expression (x : Expression)
  | emptyBlock
  | block (body : BlockBody)

/-- Elements between braces, separated by commas; a comma may stand behind the last. -/
structure BlockBody where
  origin : Origin
  first : Element
  rest : List Element
  trailingComma : Bool

/-- An element of a block body. -/
inductive Element where
  | expression (x : Expression)
  | inclusion (x : Include)
  | relation (x : Relation)

end

/-- What a statement may consist of. -/
inductive FunctionBlock where
  | inclusion (x : Include)
  | relation (x : Relation)

namespace BlockBody

def elements (x : BlockBody) : List Element := x.first :: x.rest

end BlockBody

namespace RightSide

def body? : RightSide → Option BlockBody
  | .block x => some x
  | _ => none

def isBlock : RightSide → Bool
  | .expression _ => false
  | _ => true

def form (x : RightSide) : String := if x.isBlock then "block" else "pure"

/-- The spans of the right side's nodes, of which there is at most one. -/
def spans : RightSide → List Span
  | .expression x => [x.origin.span]
  | .emptyBlock => []
  | .block body => [body.origin.span]

end RightSide

def Element.origin : Element → Origin
  | .expression x => x.origin
  | .inclusion x => x.origin
  | .relation x => x.origin

def FunctionBlock.origin : FunctionBlock → Origin
  | .inclusion x => x.origin
  | .relation x => x.origin

/-! ### Passes over relations -/

section
variable {σ : Type} (p : OriginMap σ)

def Include.mapOrigins (s : σ) (x : Include) : Include :=
  let spans := [x.file.origin.span]
  { origin := p.here s spans x.origin, file := x.file.mapOrigins p (p.below s spans 0) }

mutual

def Relation.mapOrigins (s : σ) : Relation → Relation
  | ⟨kind, origin, left, right⟩ =>
    let spans := left.origin.span :: right.spans
    ⟨kind, p.here s spans origin, left.mapOrigins p (p.below s spans 0),
      right.mapOrigins (p.below s spans 1)⟩

def RightSide.mapOrigins (s : σ) : RightSide → RightSide
  | .expression x => .expression (x.mapOrigins p s)
  | .emptyBlock => .emptyBlock
  | .block body => .block (body.mapOrigins s)

def BlockBody.mapOrigins (s : σ) : BlockBody → BlockBody
  | ⟨origin, first, rest, trailingComma⟩ =>
    let spans := (first :: rest).map (·.origin.span)
    ⟨p.here s spans origin, first.mapOrigins (p.below s spans 0),
      Element.mapListOrigins s spans 1 rest, trailingComma⟩

def Element.mapOrigins (s : σ) : Element → Element
  | .expression x => .expression (x.mapOrigins p s)
  | .inclusion x => .inclusion (x.mapOrigins p s)
  | .relation x => .relation (x.mapOrigins s)

/-- Elements from an index on, under a node whose children have the given spans. -/
def Element.mapListOrigins (s : σ) (spans : List Span) (i : Nat) : List Element → List Element
  | [] => []
  | x :: xs => x.mapOrigins (p.below s spans i) :: Element.mapListOrigins s spans (i + 1) xs

end

def FunctionBlock.mapOrigins (s : σ) : FunctionBlock → FunctionBlock
  | .inclusion x => .inclusion (x.mapOrigins p s)
  | .relation x => .relation (x.mapOrigins p s)

end

end RelationNotation
