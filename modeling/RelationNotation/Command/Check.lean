import RelationNotation.Command.Inspect

/-!
The command that reads every document of a project and reports what is wrong.
-/

namespace RelationNotation

/-- A diagnostic on one line behind its place in a file, for editors. -/
def Diagnostic.editorLine (d : Diagnostic) (file : Path) : Text :=
  file.toText ++
    s!":{d.span.start.line}:{d.span.start.column}: error: {d.message}".toList

/-- The project with given paths in place of its own sources, seen from a folder. -/
def Project.withPaths (p : Project) (folder : Path) (paths : List Path) : Project :=
  { p with root := folder, sources := ⟨paths.map Path.toText, p.sources.extensions⟩ }

namespace Run

/-- Reads a document and reports what is wrong with it; gives the number of problems. -/
def checkFile (w : Workplace) (project : Project) (forEditor : Bool) (file : Path) : Run Nat := do
  let parsed ← readDocument w project.parser file
  let shown := file.relativeTo (w.folder.resolve project.root)
  if forEditor then
    parsed.diagnostics.forM fun d => err (d.editorLine shown)
  else
    reportAll parsed.diagnostics parsed.text shown
  return parsed.diagnostics.length

def check (w : Workplace) (paths : List Path) (format : Text) (manifest : Option Text) :
    Run Unit := do
  let forEditor := format = "vscode".toList
  let loaded ← loadProject w manifest w.folder
  let project := if paths.isEmpty then loaded else loaded.withPaths w.folder paths
  match project.discover w.files w.folder with
  | .error p => fail (.pattern p)
  | .ok [] => out "No fgfh documents found".toList
  | .ok found =>
    let counts ← found.mapM (checkFile w project forEditor)
    let problems := counts.foldl (· + ·) 0
    if problems = 0 then
      out (if forEditor then "::notice: No problems found"
        else s!"✓ {found.length} file(s) parsed without errors").toList
    else
      let failed := counts.countP (· != 0)
      err s!"{problems} problem(s) in {failed} of {found.length} file(s)".toList
      exit 1

end Run

end RelationNotation
