import RelationNotation.Path.Pattern

/-!
Trees of folders and files, held in memory, and the search for paths in them. A path that leads
through a file leads nowhere.
-/

namespace RelationNotation

/-- A file with its bytes, or a folder with named entries. -/
inductive FileNode where
  | file (content : ByteArray)
  | folder (entries : List (Text × FileNode))

namespace FileNode

def isFile : FileNode → Bool
  | .file _ => true
  | .folder _ => false

def isFolder : FileNode → Bool
  | .file _ => false
  | .folder _ => true

/-- The entries of a folder; a file has none. -/
def entries : FileNode → List (Text × FileNode)
  | .file _ => []
  | .folder es => es

def entry? (n : FileNode) (name : Text) : Option FileNode :=
  (n.entries.find? fun e => e.1 == name).map (·.2)

/-- The node at the end of a path without `..`. -/
def get? (n : FileNode) : List Text → Option FileNode
  | [] => some n
  | x :: xs => (n.entry? x).bind fun m => m.get? xs

def setEntry (name : Text) (f : Option FileNode → FileNode) :
    List (Text × FileNode) → List (Text × FileNode)
  | [] => [(name, f none)]
  | e :: es => if e.1 = name then (name, f (some e.2)) :: es else e :: setEntry name f es

/-- Puts a node at the end of a path, with the folders that lead there. -/
def insert (x : FileNode) : List Text → Option FileNode → FileNode
  | [], old =>
    match x, old with
    | .folder [], some (.folder es) => .folder es
    | _, _ => x
  | name :: names, old =>
    .folder (setEntry name (insert x names) ((old.map entries).getD []))

mutual

/-- The names that lead to the folders of a tree, the tree itself included, given the names that
lead to it. -/
def foldersFrom (above : List Text) : FileNode → List (List Text)
  | .file _ => []
  | .folder es => above :: foldersOfEntries above es

def foldersOfEntries (above : List Text) : List (Text × FileNode) → List (List Text)
  | [] => []
  | (name, n) :: es => foldersFrom (above ++ [name]) n ++ foldersOfEntries above es

end

/-- The node that a path with `..` in it leads to. -/
def resolve? (root : FileNode) (parts : List Text) : Option FileNode :=
  root.get? (Path.resolveParts [] parts)

end FileNode

/-! ### Searching for paths -/

/-- A part of a search: folders at any depth, entries of a matching name, the entry of a name, or
nothing but the folder itself. -/
inductive SearchPart where
  | anyDepth
  | wild (p : Pattern)
  | named (name : Text)
  | here

namespace SearchPart

def hasDoubleStar : Text → Bool
  | '*' :: '*' :: _ => true
  | _ :: cs => hasDoubleStar cs
  | [] => false

/-- The part of a search that a part of a pattern writes; two stars stand alone or not at all. -/
def ofText? (t : Text) : Option SearchPart :=
  if t = ['*', '*'] then some .anyDepth
  else if hasDoubleStar t then none
  else if Pattern.isWild t then some (.wild (.ofText t))
  else some (.named t)

/-- The search that a pattern with slashes writes. A slash at the end asks for folders. -/
def listOfText? (t : Text) : Option (List SearchPart) := do
  let parts ← (Path.ofText t).parts.mapM ofText?
  return if t.getLast? = some '/' then parts ++ [.here] else parts

end SearchPart

namespace FileNode

/-- The names that lead from the root to what a search finds, starting at a folder that the given
names lead to. Only the last part of a search may find files. -/
def search (root : FileNode) : List SearchPart → List Text → List (List Text)
  | [], above => [above]
  | .here :: _, above => [above]
  | .anyDepth :: ps, above =>
    match root.resolve? above with
    | some n => (foldersFrom above n).flatMap (search root ps)
    | none => []
  | .named name :: ps, above =>
    match root.resolve? (above ++ [name]) with
    | some n => if ps.isEmpty || n.isFolder then search root ps (above ++ [name]) else []
    | none => []
  | .wild p :: ps, above =>
    match root.resolve? above with
    | some n =>
      (n.entries.filter fun e => (ps.isEmpty || e.2.isFolder) && p.isMatch e.1).flatMap fun e =>
        search root ps (above ++ [e.1])
    | none => []

end FileNode

end RelationNotation
