import RelationNotation.Command.Check
import RelationNotation.Command.Request

/-!
The program: what each request that a command line makes comes to.
-/

namespace RelationNotation

def versionLine : Text := "fgfh version 0.1.0".toList

def usage : Text := Text.joinLines (List.map String.toList [
  "Usage: fgfh [--version | -v] [--verbose] [--help] COMMAND ...",
  "",
  "Parser for the fgfh relation notation",
  "",
  "Commands:",
  "  parse FILE      print the syntax tree",
  "    -f, --format NAME      tree, sexp or json (tree)",
  "    -m, --manifest PATH    path to fgfh.toml",
  "  tokens FILE     print the token stream",
  "    --trivia / --no-trivia    with or without trivia tokens",
  "  check [PATHS]   report lexical and syntax errors",
  "    -f, --format NAME      human or vscode (human)",
  "    -m, --manifest PATH    path to fgfh.toml"])

namespace Command

def run (w : Workplace) : Command → Run Unit
  | .parse file format manifest => Run.parse w file format manifest
  | .tokens file trivia => Run.tokens w file trivia
  | .check paths format manifest => Run.check w paths format manifest

/-- The outcome of a command, with records if the run is verbose. -/
def outcome (w : Workplace) (verbose : Bool) (c : Command) : Outcome :=
  let o := Outcome.ofRun (c.run w)
  if verbose then o else o.withoutLog

end Command

namespace Request

def manifest? : Request → Option Text
  | .run _ (.parse _ _ manifest) | .run _ (.check _ _ manifest) => manifest
  | _ => none

/-- The paths at which a request looks for documents, besides the file it names. -/
def sources (w : Workplace) : Request → List Path
  | .run _ (.check paths _ manifest) =>
    match w.project manifest w.folder with
    | .ok loaded =>
      let p := if paths.isEmpty then loaded else loaded.withPaths w.folder paths
      p.sources.paths.map fun t => w.folder.resolve (p.root.join (.ofText t))
    | .error _ => []
  | _ => []

def outcome (w : Workplace) : Request → Outcome
  | .help asked => ⟨[.out usage], if asked then 0 else 2, none⟩
  | .misuse => ⟨[.err usage], 2, none⟩
  | .version => ⟨[.out versionLine], 0, none⟩
  | .run verbose c => c.outcome w verbose

end Request

end RelationNotation
