import RelationNotation.Text.Numeral

/-!
JSON values. An object keeps its members in order; of two members of one name the first counts.
-/

namespace RelationNotation

/-- A JSON value. A number written with a point or an exponent is a decimal, even if it is whole;
its value is that of its digits, scaled by a power of ten. -/
inductive Json where
  | null
  | bool (b : Bool)
  | int (n : Int)
  | decimal (digits exponent : Int)
  | string (t : Text)
  | array (items : List Json)
  | object (members : List (String × Json))
  deriving Inhabited

namespace Json

def str (s : String) : Json := .string s.toList

def member? (members : List (String × Json)) (name : String) : Option Json :=
  (members.find? fun m => m.1 == name).map (·.2)

mutual

def depth : Json → Nat
  | .array items => depthOfItems items + 1
  | .object members => depthOfMembers members + 1
  | _ => 0

def depthOfItems : List Json → Nat
  | [] => 0
  | x :: xs => max x.depth (depthOfItems xs)

def depthOfMembers : List (String × Json) → Nat
  | [] => 0
  | (_, x) :: xs => max x.depth (depthOfMembers xs)

end

mutual

/-- How many arrays and objects with anything in them stand around one another. -/
def levels : Json → Nat
  | .array (x :: xs) => max x.levels (levelsOfItems xs) + 1
  | .object ((_, x) :: ms) => max x.levels (levelsOfMembers ms) + 1
  | _ => 0

def levelsOfItems : List Json → Nat
  | [] => 0
  | x :: xs => max x.levels (levelsOfItems xs)

def levelsOfMembers : List (String × Json) → Nat
  | [] => 0
  | (_, x) :: ms => max x.levels (levelsOfMembers ms)

end

end Json

end RelationNotation
