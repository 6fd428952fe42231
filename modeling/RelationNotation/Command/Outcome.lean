import RelationNotation.Command.Drawing
import RelationNotation.Project.Discovery
import RelationNotation.Text.Terminal

/-!
Outcomes: what a run of the program writes, in order, and how it ends. A run that comes to its end
has status 0; it may stop before with another, or fail because something it relies on is not so.
-/

namespace RelationNotation

/-- Something that a run writes. -/
inductive Effect where
  /-- A line on standard output. -/
  | out (line : Text)
  /-- A line on standard error. -/
  | err (line : Text)
  /-- A record of what the reader of documents does, kept if the run is verbose. -/
  | log (line : Text)
  | draw (d : Drawing)

/-- Why a document is not read. -/
inductive ReadFault where
  | missing
  | isFolder
  | notText
  deriving DecidableEq

/-- Why a run fails. -/
inductive Failure where
  /-- A manifest is not accepted, and not for its configuration. -/
  | manifest (f : ManifestFault)
  | reading (f : ReadFault)
  | pattern (p : BadPattern)

def Failure.message : Failure → String
  | .manifest .longInteger => "a number in the manifest has too many digits"
  | .manifest .notText => "the manifest is not UTF-8"
  | .manifest _ => "a section of the manifest is not a table"
  | .reading .missing => "a document is missing"
  | .reading .isFolder => "a folder has the name of a document"
  | .reading .notText => "a document is not UTF-8"
  | .pattern p => "the pattern " ++ String.ofList p.pattern ++ " has two stars in a name"

/-- How a run ends before its time. -/
inductive Stop where
  | status (n : Nat)
  | failed (f : Failure)

/-- A run that writes as it goes and may stop. The effects are kept last one first. -/
abbrev Run := EStateM Stop (List Effect)

namespace Run

def emit (e : Effect) : Run Unit := modify (e :: ·)

def out (line : Text) : Run Unit := emit (.out line)

def err (line : Text) : Run Unit := emit (.err line)

def exit (status : Nat) : Run α := throw (.status status)

def fail (f : Failure) : Run α := throw (.failed f)

end Run

/-- What a run has written, and how it ended. -/
structure Outcome where
  effects : List Effect
  status : Nat
  failure : Option Failure

namespace Outcome

/-- The outcome of a run; a run that fails has status 1. -/
def ofRun (r : Run Unit) : Outcome :=
  match r [] with
  | .ok _ es => ⟨es.reverse, 0, none⟩
  | .error (.status n) es => ⟨es.reverse, n, none⟩
  | .error (.failed f) es => ⟨es.reverse, 1, some f⟩

def isPlain : Effect → Bool
  | .log _ => false
  | _ => true

def withoutLog (o : Outcome) : Outcome := { o with effects := o.effects.filter isPlain }

def outText : Effect → Text
  | .out line => Text.withoutSequences line ++ ['\n']
  | _ => []

def errText : Effect → Text
  | .err line => Text.withoutSequences line ++ ['\n']
  | .log line => line ++ ['\n']
  | _ => []

def stdout (o : Outcome) : Text := o.effects.flatMap outText

def stderr (o : Outcome) : Text := o.effects.flatMap errText

def drawings (o : Outcome) : List Drawing :=
  o.effects.filterMap fun e =>
    match e with
    | .draw d => some d
    | _ => none

end Outcome

end RelationNotation
