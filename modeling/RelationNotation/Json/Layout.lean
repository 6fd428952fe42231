import RelationNotation.Json.Value
import RelationNotation.Text.Quoted

/-!
JSON values as text, one item or member a line, each level of nesting two spaces further in. Empty
arrays and objects stay on one line.
-/

namespace RelationNotation.Json

def escapeChar (c : Char) : Text :=
  if c = '"' ∨ c = '\\' then ['\\', c]
  else if c = '\x08' then ['\\', 'b']
  else if c = '\x0c' then ['\\', 'f']
  else if c = '\n' then ['\\', 'n']
  else if c = '\r' then ['\\', 'r']
  else if c = '\t' then ['\\', 't']
  else if c.toNat < 0x20 then ['\\', 'u'] ++ Text.hexDigits 4 c.toNat
  else [c]

def stringText (t : Text) : Text := '"' :: t.flatMap escapeChar ++ ['"']

def decimalText (digits exponent : Int) : Text := Text.ofInt digits ++ 'e' :: Text.ofInt exponent

def newLine (level : Nat) : Text := '\n' :: List.replicate (2 * level) ' '

mutual

def layoutAt (level : Nat) : Json → Text
  | .null => "null".toList
  | .bool b => (if b then "true" else "false").toList
  | .int n => Text.ofInt n
  | .decimal digits exponent => decimalText digits exponent
  | .string t => stringText t
  | .array [] => ['[', ']']
  | .array (x :: xs) =>
    '[' :: newLine (level + 1) ++ layoutAt (level + 1) x ++ layoutItems (level + 1) xs ++
      newLine level ++ [']']
  | .object [] => ['{', '}']
  | .object ((name, x) :: xs) =>
    '{' :: newLine (level + 1) ++ stringText name.toList ++ ':' :: ' ' :: layoutAt (level + 1) x ++
      layoutMembers (level + 1) xs ++ newLine level ++ ['}']

def layoutItems (level : Nat) : List Json → Text
  | [] => []
  | x :: xs => ',' :: newLine level ++ layoutAt level x ++ layoutItems level xs

def layoutMembers (level : Nat) : List (String × Json) → Text
  | [] => []
  | (name, x) :: xs =>
    ',' :: newLine level ++ stringText name.toList ++ ':' :: ' ' :: layoutAt level x ++
      layoutMembers level xs

end

def layout (j : Json) : Text := layoutAt 0 j

end RelationNotation.Json
