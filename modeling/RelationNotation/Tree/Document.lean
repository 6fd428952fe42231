import RelationNotation.Tree.Relation

/-!
Documents: the statements of a text in order, text skipped after a mistake included.
-/

namespace RelationNotation

/-- A documentation statement, fences included. -/
structure DashComment where
  origin : Origin
  text : Text

/-- A lone semicolon. -/
structure EmptyStatement where
  origin : Origin

/-- Text skipped after a mistake, and what the mistake was. -/
structure ErrorStatement where
  origin : Origin
  message : String
  text : Text

/-- A function block and its semicolon. -/
structure BlockStatement where
  origin : Origin
  block : FunctionBlock

/-- A statement of a document. -/
inductive Statement where
  | block (x : BlockStatement)
  | dashComment (x : DashComment)
  | empty (x : EmptyStatement)
  | error (x : ErrorStatement)

/-- A document: the root of a syntax tree. -/
structure Document where
  origin : Origin
  statements : List Statement

def DashComment.body (x : DashComment) : Text := (x.text.drop 4).take (x.text.length - 8)

def Statement.origin : Statement → Origin
  | .block x => x.origin
  | .dashComment x => x.origin
  | .empty x => x.origin
  | .error x => x.origin

/-! ### Passes over documents -/

section
variable {σ : Type} (p : OriginMap σ) (s : σ)

def DashComment.mapOrigins (x : DashComment) : DashComment :=
  { x with origin := p.leaf s x.origin }

def EmptyStatement.mapOrigins (x : EmptyStatement) : EmptyStatement := ⟨p.leaf s x.origin⟩

def ErrorStatement.mapOrigins (x : ErrorStatement) : ErrorStatement :=
  { x with origin := p.leaf s x.origin }

def BlockStatement.mapOrigins (x : BlockStatement) : BlockStatement :=
  let spans := [x.block.origin.span]
  { origin := p.here s spans x.origin, block := x.block.mapOrigins p (p.below s spans 0) }

def Statement.mapOrigins : Statement → Statement
  | .block x => .block (x.mapOrigins p s)
  | .dashComment x => .dashComment (x.mapOrigins p s)
  | .empty x => .empty (x.mapOrigins p s)
  | .error x => .error (x.mapOrigins p s)

def Document.mapOrigins (x : Document) : Document :=
  let spans := x.statements.map (·.origin.span)
  { origin := p.here s spans x.origin
    statements := x.statements.mapIdx fun i y => y.mapOrigins p (p.below s spans i) }

end

/-- A document without positions and trivia: two documents that differ in layout alone are equal
when bare. -/
def Document.bare (x : Document) : Document := x.mapOrigins (.each fun _ => default) ()

end RelationNotation
