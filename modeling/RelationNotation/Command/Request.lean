import RelationNotation.Command.Setting
import RelationNotation.Path.Folder

/-!
Requests: what a command line asks of the program. Options before the command's name are the
program's own; those behind it may stand anywhere. Files that a command names must exist.
-/

namespace RelationNotation

/-- A command with its operands and options. -/
inductive Command where
  /-- Prints the tree of a document. -/
  | parse (file : Path) (format : Text) (manifest : Option Text)
  /-- Prints the tokens of a document. -/
  | tokens (file : Path) (trivia : Bool)
  /-- Reports what is wrong with the documents of a project, or with those at given paths. -/
  | check (paths : List Path) (format : Text) (manifest : Option Text)

/-- What a command line asks for. -/
inductive Request where
  /-- A description of the program, asked for or in place of an empty command line. -/
  | help (asked : Bool)
  | version
  /-- Nothing the program can do: the command line is wrong. -/
  | misuse
  | run (verbose : Bool) (c : Command)

namespace FileNode

/-- The names that the pieces of a path's text lead to, from a folder on. Each piece, also an empty
one, must start in a folder. -/
def follow (root : FileNode) : List Text → List Text → Option (List Text)
  | place, [] => some place
  | place, piece :: pieces =>
    match root.get? place with
    | some (.folder es) =>
      if piece = [] ∨ piece = ['.'] then follow root place pieces
      else if piece = ['.', '.'] then follow root place.dropLast pieces
      else if es.any (·.1 == piece) then follow root (place ++ [piece]) pieces
      else none
    | _ => none

/-- What the text of a path leads to, from a folder on; an empty text leads nowhere. -/
def follow? (root : FileNode) (folder : Path) (t : Text) : Option FileNode :=
  if t = [] then none
  else
    let start := if t.head? = some '/' then [] else folder.parts
    (root.follow start (Path.splitSlashes t)).bind root.get?

end FileNode

namespace Request

def helpRule : OptionRule := ⟨"--help".toList, none, .flag .help⟩

def formatRule : OptionRule := ⟨"--format".toList, some 'f', .valued .format⟩

def manifestRule : OptionRule := ⟨"--manifest".toList, some 'm', .valued .manifest⟩

def programRules : List OptionRule :=
  [⟨"--version".toList, some 'v', .flag .version⟩, ⟨"--verbose".toList, none, .flag .verbose⟩,
    helpRule]

def projectRules : List OptionRule := [formatRule, manifestRule, helpRule]

def tokensRules : List OptionRule :=
  [⟨"--trivia".toList, none, .flag (.trivia true)⟩,
    ⟨"--no-trivia".toList, none, .flag (.trivia false)⟩, helpRule]

def formatOf? : Setting → Option Text
  | .format t => some t
  | _ => none

def manifestOf? : Setting → Option Text
  | .manifest t => some t
  | _ => none

def triviaOf? : Setting → Option Bool
  | .trivia b => some b
  | _ => none

/-- What the first setting that goes before everything else asks for. -/
def urgent? (l : CommandLine) : Option Request :=
  l.settings.findSome? fun s =>
    match s with
    | .help => some (.help true)
    | .version => some .version
    | _ => none

/-- The manifest that options name; an empty name is none. -/
def manifestIn (l : CommandLine) : Option Text := (l.last? manifestOf?).filter (· ≠ [])

def fileIn? (files : FileNode) (folder : Path) : List Text → Option Path
  | [t] =>
    match files.follow? folder t with
    | some (.file _) => some (.ofText t)
    | _ => none
  | _ => none

def pathsIn? (files : FileNode) (folder : Path) (ts : List Text) : Option (List Path) :=
  if ts.all fun t => (files.follow? folder t).isSome then some (ts.map .ofText) else none

/-- The options that a command knows, and the command that a command line means. -/
def commandOf? (files : FileNode) (folder : Path) (name : Text) :
    Option (List OptionRule × (CommandLine → Option Command)) :=
  if name = "parse".toList then
    some (projectRules, fun l => (fileIn? files folder l.operands).map fun file =>
      .parse file ((l.last? formatOf?).getD "tree".toList) (manifestIn l))
  else if name = "tokens".toList then
    some (tokensRules, fun l => (fileIn? files folder l.operands).map fun file =>
      .tokens file ((l.last? triviaOf?).getD true))
  else if name = "check".toList then
    some (projectRules, fun l => (pathsIn? files folder l.operands).map fun paths =>
      .check paths ((l.last? formatOf?).getD "human".toList) (manifestIn l))
  else none

def ofCommand (verbose : Bool) (rules : List OptionRule) (build : CommandLine → Option Command)
    (words : List Text) : Request :=
  match CommandLine.ofWords? rules true words with
  | none => .misuse
  | some l =>
    match urgent? l with
    | some r => r
    | none => ((build l).map (.run verbose)).getD .misuse

/-- What words that name no command ask for: help and the version are given even behind `--`. -/
def withoutCommand (words : List Text) : Request :=
  ((CommandLine.ofWords? programRules false words).bind urgent?).getD .misuse

def ofWords (files : FileNode) (folder : Path) : List Text → Request
  | [] => .help false
  | words =>
    match CommandLine.ofWords? programRules false words with
    | none => .misuse
    | some l =>
      match urgent? l, l.operands with
      | some r, _ => r
      | none, [] => .misuse
      | none, name :: rest =>
        match commandOf? files folder name with
        | some (rules, build) => ofCommand (l.settings.contains .verbose) rules build rest
        | none => withoutCommand (name :: rest)

end Request

end RelationNotation
