import RelationNotation.Text.Basic

/-!
Paths: names separated by slashes. Repeated slashes, the name `.` and a slash at the end mean
nothing and are dropped; `..` is kept until a path is resolved. A path that starts with exactly two
slashes is kept apart from one that starts with one.
-/

namespace RelationNotation

/-- Where a path starts. -/
inductive PathRoot where
  /-- At the working directory. -/
  | relative
  /-- At the root directory. -/
  | single
  /-- At the root directory, written with two slashes. -/
  | double
  deriving DecidableEq, Inhabited

/-- A path: where it starts, and the names along it. -/
structure Path where
  root : PathRoot
  parts : List Text
  deriving DecidableEq, Inhabited

namespace Path

def splitSlashes : Text → List Text
  | [] => [[]]
  | c :: cs => if c = '/' then [] :: splitSlashes cs else Text.consFirst c (splitSlashes cs)

def isName (t : Text) : Bool := t != [] && t != ['.']

def rootOfSlashes : Nat → PathRoot
  | 0 => .relative
  | 2 => .double
  | _ => .single

def ofText (t : Text) : Path :=
  ⟨rootOfSlashes (t.takeWhile (· == '/')).length, (splitSlashes t).filter isName⟩

def rootText : PathRoot → Text
  | .relative => []
  | .single => ['/']
  | .double => ['/', '/']

/-- The text of a path; the path without names at the working directory is `.`. -/
def toText (p : Path) : Text :=
  let t := rootText p.root ++ List.intercalate ['/'] p.parts
  if t = [] then ['.'] else t

def isAbsolute (p : Path) : Bool := p.root != .relative

def join (p q : Path) : Path := if q.isAbsolute then q else ⟨p.root, p.parts ++ q.parts⟩

/-- The path above; the root directory is above itself. -/
def parent (p : Path) : Path := { p with parts := p.parts.dropLast }

def name (p : Path) : Text := p.parts.getLastD []

/-- Names with each `..` taken back together with the name before it, given the names before, the
last one first. -/
def resolveParts (before : List Text) : List Text → List Text
  | [] => before.reverse
  | x :: xs =>
    if x = ['.', '.'] then resolveParts before.tail xs else resolveParts (x :: before) xs

/-- A path seen from a directory, without `..`, from the root directory on. -/
def resolve (directory p : Path) : Path := ⟨.single, resolveParts [] (directory.join p).parts⟩

def below? : List Text → List Text → Option (List Text)
  | [], ys => some ys
  | x :: xs, y :: ys => if x = y then below? xs ys else none
  | _ :: _, [] => none

/-- A path below a directory, as seen from the directory; any other path as it is. -/
def relativeTo (p directory : Path) : Path :=
  if p.root = directory.root then
    match below? directory.parts p.parts with
    | some parts => ⟨.relative, parts⟩
    | none => p
  else p

end Path

end RelationNotation
