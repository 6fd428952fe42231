import RelationNotation.Command.Outcome
import RelationNotation.Diagnostic.Report
import RelationNotation.Json.Layout
import RelationNotation.Tree.Encode
import RelationNotation.Tree.SExpression

/-!
Reading one document for a command, and the commands that print its tree or its tokens.
-/

namespace RelationNotation

/-- Files and folders, and the folder that a run works in. -/
structure Workplace where
  files : FileNode
  folder : Path

namespace Workplace

def textAt (w : Workplace) (p : Path) : Except ReadFault Text :=
  match w.files.resolve? (w.folder.join p).parts with
  | none => .error .missing
  | some (.folder _) => .error .isFolder
  | some (.file bytes) =>
    match Text.ofFile? bytes with
    | none => .error .notText
    | some t => .ok t

/-- The bytes of the file at a path without `..`. -/
def bytesAt? (w : Workplace) (p : Path) : Option ByteArray :=
  match w.files.get? p.parts with
  | some (.file bytes) => some bytes
  | _ => none

/-- The project that a manifest describes, or the one nearest to a start; without any manifest, the
project with the usual settings in the folder of the run. -/
def project (w : Workplace) (manifest : Option Text) (start : Path) :
    Except ManifestFault Project :=
  match manifest with
  | some name =>
    let p := w.folder.resolve (.ofText name)
    match w.bytesAt? p with
    | some bytes => Project.ofFile p bytes
    | none => .error (.notFound name)
  | none =>
    match (findManifest w.files w.folder start).bind fun p => (w.bytesAt? p).map (p, ·) with
    | some (p, bytes) => Project.ofFile p bytes
    | none => .ok { root := w.folder }

end Workplace

/-! ### Records of reading -/

def Token.record? (t : Token) : Option Text :=
  t.fault.map fun f =>
    (s!"DEBUG fgfh.core.lexer: Lexical error at {t.span.start.line}:{t.span.start.column}: " ++
      f.message).toList

def Diagnostic.record (d : Diagnostic) (skipped : Span) : Text :=
  (s!"DEBUG fgfh.core.parser_impl: Recovered from syntax error at {d.span.toText}: " ++
    s!"skipped {skipped.toText}").toList

def Statement.skipped? : Statement → Option Span
  | .error x => some x.origin.span
  | _ => none

/-- The records of reading a document: unreadable tokens first, then mistakes. -/
def Parsed.records (p : Parsed) : List Text :=
  p.tokens.filterMap Token.record? ++
    List.zipWith Diagnostic.record (p.diagnostics.filter (·.kind == .grammatical))
      (p.document.statements.filterMap Statement.skipped?)

namespace Run

def readText (w : Workplace) (p : Path) : Run Text :=
  match w.textAt p with
  | .ok t => return t
  | .error f => fail (.reading f)

def readDocument (w : Workplace) (options : ParserOptions) (p : Path) : Run Parsed := do
  let parsed := parseDocument (← readText w p) options
  parsed.records.forM fun r => emit (.log r)
  return parsed

/-- The project of a run. A fault in its configuration stops the run. -/
def loadProject (w : Workplace) (manifest : Option Text) (start : Path) : Run Project :=
  match w.project manifest start with
  | .ok p => return p
  | .error f =>
    match f.message? with
    | some m => do
      err ("Error: ".toList ++ m)
      exit 1
    | none => fail (.manifest f)

/-- Reports diagnostics with the lines around them, an empty line behind each. -/
def reportAll (ds : List Diagnostic) (source : Text) (file : Path) : Run Unit :=
  ds.forM fun d => do
    err (d.report (some source) (some file))
    err []

end Run

/-! ### The commands -/

/-- How a tree is printed. -/
inductive TreeFormat where
  | drawn | sexp | json
  deriving DecidableEq

namespace TreeFormat

def ofName? (name : Text) : Option TreeFormat :=
  if name = "tree".toList then some .drawn
  else if name = "sexp".toList then some .sexp
  else if name = "json".toList then some .json
  else none

def write (d : Document) : TreeFormat → Effect
  | .drawn => .draw (.tree ((Node.document d).labelTree none))
  | .sexp => .out (Node.document d).sexp.toList
  | .json => .out d.toJson.layout

end TreeFormat

namespace Run

/-- Prints the tree of a document, then reports what is wrong with the document. -/
def parse (w : Workplace) (file : Path) (format : Text) (manifest : Option Text) : Run Unit := do
  match TreeFormat.ofName? format with
  | none =>
    err ("Unknown format: ".toList ++ format)
    exit 2
  | some f =>
    let project ← loadProject w manifest file.parent
    let parsed ← readDocument w project.parser file
    emit (f.write parsed.document)
    unless parsed.ok do
      reportAll parsed.diagnostics parsed.text file
      exit 1

def tokens (w : Workplace) (file : Path) (trivia : Bool) : Run Unit := do
  let ts := scan (← readText w file)
  (ts.filterMap Token.record?).forM fun r => emit (.log r)
  emit (.draw (.ofTokens file.toText (ts.filter fun t => trivia || !t.kind.isTrivia)))

end Run

end RelationNotation
