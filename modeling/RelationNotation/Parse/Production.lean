import RelationNotation.Parse.Statement
import RelationNotation.Tree.Node

/-!
The productions of the grammar by name, each with the routine that reads it, and single steps of a
session.
-/

namespace RelationNotation

def Parse.production? (name : String) : Option (Nesting → Parse Node) :=
  match name with
  | "statement" => some fun n => Statement.toNode <$> statement n
  | "function_block" => some fun n => FunctionBlock.toNode <$> functionBlock n
  | "expression" => some fun n => Expression.toNode <$> expression n
  | "string" => some fun _ => StringValue.toNode <$> string
  | "type_desc" => some fun _ => Node.typeDesc <$> typeDesc
  | "type_word" => some fun n => Expression.toNode <$> typeWord n
  | "gac_string" => some fun n => Node.gacString <$> gacString n
  | "gac_stem" => some fun n => GacStem.toNode <$> gacStem n
  | "fycoide" => some fun _ => Node.fycoide <$> fycoide
  | "pointer_ref" => some fun _ => Node.pointerRef <$> pointerRef
  | "pointer" => some fun _ => Node.pointer <$> pointer
  | "pointer_id" => some fun _ => PointerId.toNode <$> pointerId
  | "block_body" => some fun n => Node.blockBody <$> blockBody n
  | "block_element" => some fun n => Element.toNode <$> blockElement n
  | "include" => some fun _ => Node.inclusion <$> includeBlock
  | _ => none

namespace Session

def run (s : Session) (routine : Nesting → Parse α) : Except SyntaxFault α × Session :=
  match routine s.nesting s.cursor with
  | .ok x c => (.ok x, { s with cursor := c })
  | .error fault c => (.error fault, { s with cursor := c })

def enter (s : Session) : Except SyntaxFault Unit × Session :=
  if s.nesting.depth ≥ s.nesting.limit then
    (.error ⟨.shallower s.nesting.limit, s.cursor.current⟩, s)
  else (.ok (), { s with nesting := s.nesting.deeper })

def leave (s : Session) : Session :=
  { s with nesting := { s.nesting with depth := s.nesting.depth - 1 } }

end Session

end RelationNotation
