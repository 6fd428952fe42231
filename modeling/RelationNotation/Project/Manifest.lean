import RelationNotation.Parse.Document
import RelationNotation.Path.Folder
import RelationNotation.Text.Encoding
import RelationNotation.Toml.Document

/-!
Project manifests: how the documents of a project are read and where they are.
-/

namespace RelationNotation

def manifestName : Text := "fgfh.toml".toList

/-- Where the documents of a project are. -/
structure Sources where
  paths : List Text := [['.']]
  extensions : List Text := [".fgfh".toList]
  deriving DecidableEq

/-- A project: its folder, how its documents are read, and where they are. -/
structure Project where
  root : Path
  parser : ParserOptions := {}
  sources : Sources := {}
  deriving DecidableEq

/-- Why a manifest is not accepted. -/
inductive ManifestFault where
  /-- There is no such file. -/
  | notFound (name : Text)
  /-- The file's bytes are not UTF-8. -/
  | notText
  /-- The file of a name is not TOML. -/
  | notToml (name : Text)
  /-- A whole number in the file has too many digits. -/
  | longInteger
  /-- A section is not a table but another value. -/
  | notTable (x : Toml)
  | maxDepth
  | attachTrivia
  | paths
  | extensions

namespace ManifestFault

/-- What is wrong with a configuration, in words; the other faults are no matter of configuration. -/
def message? : ManifestFault → Option Text
  | .notFound name => some ("Manifest not found: ".toList ++ name)
  | .notToml name => some ("Invalid ".toList ++ name)
  | .maxDepth => some "parser.max_depth must be a positive integer".toList
  | .attachTrivia => some "parser.attach_trivia must be true or false".toList
  | .paths => some "sources.paths must be a list of strings".toList
  | .extensions => some "sources.extensions must be a list of strings".toList
  | .notText | .longInteger | .notTable _ => none

end ManifestFault

namespace Project

def sectionOf (t : TomlTable) (name : String) : Toml := (t.get? name.toList).getD (.table [])

def entryOf (x : Toml) (key : String) : Except ManifestFault (Option Toml) :=
  match x with
  | .table t => .ok (TomlTable.get? t key.toList)
  | _ => .error (.notTable x)

def depthOf : Option Toml → Except ManifestFault Int
  | none => .ok ({} : ParserOptions).maxDepth
  | some (.integer n) => if n < 1 then .error .maxDepth else .ok n
  | some _ => .error .maxDepth

def attachOf : Option Toml → Except ManifestFault Bool
  | none => .ok ({} : ParserOptions).attachTrivia
  | some (.boolean b) => .ok b
  | some _ => .error .attachTrivia

def stringOf? : Toml → Option Text
  | .string t => some t
  | _ => none

def stringsOf (fault : ManifestFault) (default : List Text) :
    Option Toml → Except ManifestFault (List Text)
  | none => .ok default
  | some (.array items) =>
    match items.mapM stringOf? with
    | some ts => .ok ts
    | none => .error fault
  | some _ => .error fault

/-- The project in a folder that the table of a manifest describes. -/
def ofTable (root : Path) (t : TomlTable) : Except ManifestFault Project := do
  let parser := sectionOf t "parser"
  let sources := sectionOf t "sources"
  let maxDepth ← depthOf (← entryOf parser "max_depth")
  let attachTrivia ← attachOf (← entryOf parser "attach_trivia")
  let paths ← stringsOf .paths ({} : Sources).paths (← entryOf sources "paths")
  let extensions ←
    stringsOf .extensions ({} : Sources).extensions (← entryOf sources "extensions")
  return ⟨root, ⟨maxDepth, attachTrivia⟩, ⟨paths, extensions⟩⟩

/-- The project that the manifest at a path describes, given the manifest's bytes. -/
def ofFile (path : Path) (bytes : ByteArray) : Except ManifestFault Project :=
  match Text.ofFile? bytes with
  | none => .error .notText
  | some t =>
    match Toml.ofText? t with
    | .error .malformed => .error (.notToml path.name)
    | .error .longInteger => .error .longInteger
    | .ok table => ofTable path.parent table

end Project

/-- Whether a path without `..` leads to a file. -/
def FileNode.hasFile (files : FileNode) (p : Path) : Bool :=
  match files.get? p.parts with
  | some n => n.isFile
  | none => false

/-- The manifest in the folder that names lead to, or in the nearest folder above it. The names are
given last one first. -/
def manifestAbove (files : FileNode) : List Text → Option Path
  | [] =>
    let p : Path := ⟨.single, [manifestName]⟩
    if files.hasFile p then some p else none
  | x :: xs =>
    let p : Path := ⟨.single, (manifestName :: x :: xs).reverse⟩
    if files.hasFile p then some p else manifestAbove files xs

def findManifest (files : FileNode) (folder start : Path) : Option Path :=
  manifestAbove files (Path.resolve folder start).parts.reverse

end RelationNotation
