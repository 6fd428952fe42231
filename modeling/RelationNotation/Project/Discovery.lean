import RelationNotation.Project.Manifest

/-!
Discovery of a project's documents: every file that the manifest names, and every entry at any depth
below a folder it names whose name ends in one of the extensions. An extension may be a pattern, and
an entry found may be a folder. The order is that of the names along the paths.
-/

namespace RelationNotation

namespace Path

/-- Whether a path stands before another, or is the same: names are compared one by one, character
by character. -/
def notAfter (p q : Path) : Bool := (compare p.parts q.parts).isLE

end Path

/-- An extension with two stars next to each other. -/
structure BadPattern where
  pattern : Text

namespace Project

/-- The search for the entries that an extension stands for, at any depth. -/
def searchFor (extension : Text) : Except BadPattern (List SearchPart) :=
  match SearchPart.listOfText? ('*' :: extension) with
  | some parts => .ok (.anyDepth :: parts)
  | none => .error ⟨'*' :: extension⟩

/-- What lies at a source path: a file, or what the extensions find in a folder. -/
def found (files : FileNode) (extensions : List Text) (base : Path) :
    Except BadPattern (List Path) :=
  match files.get? base.parts with
  | none => .ok []
  | some (.file _) => .ok [base]
  | some (.folder _) => do
    let searches ← extensions.mapM searchFor
    return searches.flatMap fun s => (files.search s base.parts).map (⟨base.root, ·⟩)

def discover (files : FileNode) (folder : Path) (p : Project) : Except BadPattern (List Path) := do
  let bases := p.sources.paths.map fun t => Path.resolve folder (p.root.join (.ofText t))
  let all ← bases.mapM (found files p.sources.extensions)
  return (all.flatten.mergeSort Path.notAfter).eraseReps

end Project

end RelationNotation
