import RelationNotation.Command.Program

/-!
The command line program. It takes the files that a request can reach from the disk, lets the
request run on them, and writes what comes of it.
-/

namespace RelationNotation

/-- What is on disk at the text of a path: a file with its bytes, or a folder without entries. -/
def nodeAt? (name : String) : IO (Option FileNode) := do
  let place := (← IO.currentDir) / name
  if ← place.isDir then return some (.folder [])
  else if ← place.pathExists then return some (.file (← IO.FS.readBinFile place))
  else return none

def takeOver (files : FileNode) (p : Path) : IO FileNode := do
  match ← nodeAt? (String.ofList p.toText) with
  | some n => return FileNode.insert n p.parts (some files)
  | none => return files

/-- Takes over what is on disk at a path and below it. -/
partial def takeOverAll (files : FileNode) (p : Path) : IO FileNode := do
  let mut taken ← takeOver files p
  let place := (← IO.currentDir) / String.ofList p.toText
  if ← place.isDir then
    for entry in ← place.readDir do
      taken ← takeOverAll taken (p.join ⟨.relative, [entry.fileName.toList]⟩)
  return taken

/-- Every path on the way from the root directory to a path, and the manifest in each. -/
def alongTheWay (folder p : Path) : List Path :=
  (List.range (p.parts.length + 1)).flatMap fun count =>
    let here := folder.resolve { p with parts := p.parts.take count }
    [here, here.join ⟨.relative, [manifestName]⟩]

def perform : Effect → IO Unit
  | .draw d => d.lines.forM fun l => IO.println (String.ofList l)
  | e => do
    IO.print (String.ofList (Outcome.outText e))
    IO.eprint (String.ofList (Outcome.errText e))

/-- Runs the request that the words of a command line make; gives the status. -/
def runProgram (args : List String) : IO UInt32 := do
  let folder := Path.ofText (← IO.currentDir).toString.toList
  let words := args.map String.toList
  let named := words.flatMap fun w => alongTheWay folder (folder.join (.ofText w))
  let mut files : FileNode := .folder []
  for p in alongTheWay folder folder ++ named do
    files ← takeOver files p
  let request := Request.ofWords files folder words
  if let some name := request.manifest? then
    files ← takeOver files (folder.resolve (.ofText name))
  for p in request.sources ⟨files, folder⟩ do
    files ← takeOverAll files p
  let o := request.outcome ⟨files, folder⟩
  o.effects.forM perform
  if let some f := o.failure then IO.eprintln f.message
  return o.status.toUInt32

end RelationNotation

def main (args : List String) : IO UInt32 := RelationNotation.runProgram args
