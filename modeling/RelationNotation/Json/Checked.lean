import RelationNotation.Json.Reader
import RelationNotation.Json.WholeNumber

/-!
Checked reading of JSON. A reading either gives a value or says everything that is wrong, each issue
with its place; two readings put together give the issues of both, the first reading's first.
-/

namespace RelationNotation

/-- A value, or everything that is wrong. -/
inductive Checked (α : Type) where
  | value (x : α)
  | issues (xs : List Issue)

namespace Checked

def fail (k : IssueKind) : Checked α := .issues [⟨k, []⟩]

def under (s : JsonStep) : Checked α → Checked α
  | .value x => .value x
  | .issues xs => .issues (xs.map fun i => { i with location := s :: i.location })

/-- A reading put to use by another; the issues of both are kept. -/
def app (f : Checked (α → β)) (x : Checked α) : Checked β :=
  match f, x with
  | .value f, .value x => .value (f x)
  | .issues is, .value _ => .issues is
  | .value _, .issues js => .issues js
  | .issues is, .issues js => .issues (is ++ js)

instance : Applicative Checked where
  pure := .value
  seq f x := app f (x ())

/-- A reading that may find the value wrong as a whole, once its parts are right. -/
def check (f : α → Except IssueKind β) : Checked α → Checked β
  | .issues is => .issues is
  | .value x =>
    match f x with
    | .ok y => .value y
    | .error k => fail k

def ofList : List (Checked α) → Checked (List α)
  | [] => .value []
  | x :: xs => app (app (.value List.cons) x) (ofList xs)

def countValues (xs : List (Checked α)) : Nat :=
  xs.countP fun
    | .value _ => true
    | .issues _ => false

@[simp] theorem map_value (f : α → β) (x : α) : f <$> Checked.value x = .value (f x) := rfl

@[simp] theorem seq_value (f : α → β) (x : α) :
    Checked.value f <*> Checked.value x = .value (f x) := rfl

@[simp] theorem under_value (s : JsonStep) (x : α) : under s (.value x) = .value x := rfl

theorem ofList_map_value {f : α → Checked β} {g : α → β} {xs : List α}
    (h : ∀ x ∈ xs, f x = .value (g x)) : ofList (xs.map f) = .value (xs.map g) := by
  induction xs with
  | nil => rfl
  | cons x xs ih =>
    rw [List.map_cons, h x List.mem_cons_self, ofList,
      ih fun y hy => h y (List.mem_cons_of_mem x hy)]
    rfl

end Checked

namespace Json

def ofWhole (r : Except IssueKind Int) : Checked Int :=
  match r with
  | .ok n => .value n
  | .error k => .fail k

/-- Reads a whole number, which may be written as a decimal, a string or a truth value. -/
def toInt : Json → Checked Int
  | .int n => .value n
  | .decimal digits exponent => ofWhole (intOfDecimal digits exponent)
  | .bool b => .value (if b then 1 else 0)
  | .string t => ofWhole (intOfText t)
  | _ => .fail .integer

def toText : Json → Checked Text
  | .string t => .value t
  | _ => .fail .string

def trueWords : List String := ["1", "t", "true", "y", "yes", "on"]

def falseWords : List String := ["0", "f", "false", "n", "no", "off"]

def ofOneOrZero (n : Int) : Checked Bool :=
  if n = 1 then .value true
  else if n = 0 then .value false
  else .fail .booleanText

/-- Reads a truth value, which may be written as a word, or as one or zero. A number that is no
whole number of 64 bits could not be a truth value. -/
def toBool : Json → Checked Bool
  | .bool b => .value b
  | .string t =>
    let word := String.ofList (t.map Char.toLower)
    if word ∈ trueWords then .value true
    else if word ∈ falseWords then .value false
    else .fail .booleanText
  | .int n => if -intBound ≤ n ∧ n < intBound then ofOneOrZero n else .fail .boolean
  | .decimal digits exponent =>
    match intOfDecimal digits exponent with
    | .ok n => ofOneOrZero n
    | .error _ => .fail .boolean
  | _ => .fail .boolean

def toEnumeration (ofText? : String → Option α) : Json → Checked α
  | .string t =>
    match ofText? (String.ofList t) with
    | some k => .value k
    | none => .fail .enumeration
  | _ => .fail .enumeration

def toLiteral (ofText? : String → Option α) : Json → Checked α
  | .string t =>
    match ofText? (String.ofList t) with
    | some k => .value k
    | none => .fail .literal
  | _ => .fail .literal

def itemsFrom (read : Json → Checked α) (i : Nat) : List Json → List (Checked α)
  | [] => []
  | x :: xs => (read x).under (.index i) :: itemsFrom read (i + 1) xs

def toList (read : Json → Checked α) : Json → Checked (List α)
  | .array items => .ofList (itemsFrom read 0 items)
  | _ => .fail .array

/-- Reads an array of one item or more; wrong items do not count. -/
def toNonempty (read : Json → Checked α) : Json → Checked (α × List α)
  | .array items =>
    let readings := itemsFrom read 0 items
    match Checked.ofList readings with
    | .value (x :: xs) => .value (x, xs)
    | .value [] => .fail .tooShort
    | .issues is =>
      if Checked.countValues readings = 0 then .issues (is ++ [⟨.tooShort, []⟩]) else .issues is
  | _ => .fail .array

def toModel (read : List (String × Json) → Checked α) : Json → Checked α
  | .object members => read members
  | _ => .fail .model

/-- How many levels the reader of models goes down. -/
def levelLimit : Nat := 200

def modelOfText (read : List (String × Json) → Checked α) (t : Text) : Checked α :=
  match ofTextWithin? levelLimit t with
  | some j => toModel read j
  | none => .fail .unreadable

def field (members : List (String × Json)) (name : String) (read : Json → Checked α) :
    Checked α :=
  match member? members name with
  | some j => (read j).under (.field name)
  | none => (Checked.fail .missing).under (.field name)

def fieldOr (default : α) (members : List (String × Json)) (name : String)
    (read : Json → Checked α) : Checked α :=
  match member? members name with
  | some j => (read j).under (.field name)
  | none => .value default

def toOption (read : Json → Checked α) : Json → Checked (Option α)
  | .null => .value none
  | j => some <$> read j

/-- Reads an object that says by its kind which of several models it is. -/
def toChoice (models : List (String × (List (String × Json) → Checked α))) : Json → Checked α
  | .object members =>
    match member? members "kind" with
    | none => .fail .untagged
    | some (.string t) =>
      match models.find? fun m => m.1 == String.ofList t with
      | some (tag, read) => (read members).under (.field tag)
      | none => .fail .unknownTag
    | some _ => .fail .unknownTag
  | _ => .fail .choice

end Json

end RelationNotation
