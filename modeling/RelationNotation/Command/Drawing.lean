import RelationNotation.Text.Markup
import RelationNotation.Token.Basic
import RelationNotation.Tree.Node

/-!
Drawings: a syntax tree or a list of tokens as labels, before they are laid out for a terminal.
-/

namespace RelationNotation

/-- A tree of labels. -/
inductive LabelTree where
  | node (label : Label) (branches : List LabelTree)

/-- What is drawn on a terminal. -/
inductive Drawing where
  | tree (t : LabelTree)
  | table (title : Text) (columns : List Text) (rows : List (List Text))

namespace Node

/-- The label of a node under the name of a field: kind, value, operator and form, and span. -/
def label (n : Node) (field : Option String) : Label :=
  let plain (t : Text) : Segment := ⟨none, t⟩
  let styled (s : Style) (t : Text) : Segment := ⟨some s, t⟩
  let front := match field with
    | some f => [styled .yellow (f.toList ++ [':']), plain [' ']]
    | none => []
  let value := match n.value? with
    | some v => [plain [' '], styled .green (Text.quoted v)]
    | none => []
  let relation := match n.relation? with
    | some (symbol, form) =>
      [plain [' '], styled .cyan symbol.toList, plain (" (" ++ form ++ ")").toList]
    | none => []
  front ++ styled .bold n.kind.toList :: value ++ relation ++
    [plain [' '], styled .dim n.span.toText.toList]

def labelTree (n : Node) (field : Option String) : LabelTree :=
  .node (n.label field) (n.children.attach.map fun c => c.1.2.labelTree (some c.1.1))
termination_by sizeOf n
decreasing_by exact sizeOf_lt_of_mem_children c.2

end Node

namespace Token

/-- The text of a token in a table, with its fault if it has one. -/
def cell (t : Token) : Text :=
  Text.quoted t.text ++ ((t.fault.map fun f => (" (" ++ f.message ++ ")").toList).getD [])

def row (t : Token) : List Text := [t.kind.label.toList, t.cell, t.span.toText.toList]

end Token

namespace Drawing

def ofTokens (title : Text) (ts : List Token) : Drawing :=
  .table title ["Kind".toList, "Text".toList, "Location".toList] (ts.map Token.row)

end Drawing

mutual

/-- The lines of a tree behind the lines of the branches around it. -/
def LabelTree.lines (first rest : Text) : LabelTree → List Text
  | .node label branches => (first ++ label.plain) :: LabelTree.branchLines rest branches

/-- The lines of branches, the last of which ends the line of its siblings. -/
def LabelTree.branchLines (rest : Text) : List LabelTree → List Text
  | [] => []
  | [t] => t.lines (rest ++ "└── ".toList) (rest ++ "    ".toList)
  | t :: u :: ts =>
    t.lines (rest ++ "├── ".toList) (rest ++ "│   ".toList) ++ LabelTree.branchLines rest (u :: ts)

end

namespace Drawing

def widths : List (List Text) → List Nat
  | [] => []
  | [row] => row.map List.length
  | row :: rows => List.zipWith max (row.map List.length) (widths rows)

def rowLine (ws : List Nat) (row : List Text) : Text :=
  List.intercalate [' ', ' '] (List.zipWith (fun w c => c.rightpad w ' ') ws row)

def lines : Drawing → List Text
  | .tree t => t.lines [] []
  | .table title columns rows => title :: (columns :: rows).map (rowLine (widths (columns :: rows)))

end Drawing

end RelationNotation
