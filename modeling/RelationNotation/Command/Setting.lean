import RelationNotation.Text.Basic

/-!
Options on a command line. A word that starts with a hyphen and is longer than it holds options: a
long name, perhaps with a value behind `=`, or one hyphen and the letters of several options. An
option that takes a value takes the rest of its word, or else the next word whatever that is. The
word `--` ends the options.
-/

namespace RelationNotation

/-- What an option asks for. -/
inductive Setting where
  | help
  | version
  | verbose
  | format (name : Text)
  | manifest (path : Text)
  | trivia (kept : Bool)
  deriving DecidableEq

/-- What an option means: a setting, or one for each value. -/
inductive OptionMeaning where
  | flag (s : Setting)
  | valued (f : Text → Setting)

/-- An option: its long name, its letter and its meaning. -/
structure OptionRule where
  long : Text
  letter : Option Char
  meaning : OptionMeaning

/-- What a word asks for, and what the next word is for, if it is a value. -/
structure OptionWord where
  settings : List Setting
  pending : Option (Text → Setting) := none

namespace OptionRule

def meaningOf? (rules : List OptionRule) (long : Text) : Option OptionMeaning :=
  (rules.find? fun r => r.long == long).map meaning

def meaningOfLetter? (rules : List OptionRule) (c : Char) : Option OptionMeaning :=
  (rules.find? fun r => r.letter == some c).map meaning

def ofLetters? (rules : List OptionRule) : Text → Option OptionWord
  | [] => some ⟨[], none⟩
  | c :: cs => do
    match ← meaningOfLetter? rules c with
    | .flag s =>
      let w ← ofLetters? rules cs
      return ⟨s :: w.settings, w.pending⟩
    | .valued f => return if cs.isEmpty then ⟨[], some f⟩ else ⟨[f cs], none⟩

/-- The value behind the first `=` of a word. -/
def explicitValue? (word : Text) : Option Text :=
  match word.dropWhile (· != '=') with
  | _ :: value => some value
  | [] => none

def ofWord? (rules : List OptionRule) (word : Text) : Option OptionWord :=
  match meaningOf? rules (word.takeWhile (· != '=')), explicitValue? word with
  | some (.flag s), none => some ⟨[s], none⟩
  | some (.flag _), some _ => none
  | some (.valued f), none => some ⟨[], some f⟩
  | some (.valued f), some value => some ⟨[f value], none⟩
  | none, _ => if word.take 2 = ['-', '-'] then none else ofLetters? rules word.tail

end OptionRule

/-- Settings in the order in which they are asked for, and the words that are no options. -/
structure CommandLine where
  settings : List Setting
  operands : List Text

namespace CommandLine

def isOption (word : Text) : Bool := word.head? == some '-' && word.length > 1

/-- Reads options up to the end, or up to the first other word if they may not be scattered. There
is no reading if an option is unknown or its value does not come. -/
def ofWords? (rules : List OptionRule) (scattered : Bool) : List Text → Option CommandLine
  | [] => some ⟨[], []⟩
  | w :: ws =>
    if w = ['-', '-'] then some ⟨[], ws⟩
    else if isOption w then
      match OptionRule.ofWord? rules w with
      | none => none
      | some ⟨settings, none⟩ =>
        (ofWords? rules scattered ws).map fun l => ⟨settings ++ l.settings, l.operands⟩
      | some ⟨settings, some f⟩ =>
        match ws with
        | [] => none
        | v :: vs =>
          (ofWords? rules scattered vs).map fun l => ⟨settings ++ f v :: l.settings, l.operands⟩
    else if scattered then
      (ofWords? rules scattered ws).map fun l => ⟨l.settings, w :: l.operands⟩
    else some ⟨[], w :: ws⟩

def last? (l : CommandLine) (value? : Setting → Option α) : Option α :=
  (l.settings.filterMap value?).getLast?

end CommandLine

end RelationNotation
