import RelationNotation.Text.Basic

/-!
TOML values. Of a number with a fraction, a date or a time only what it is matters here, so its
digits are kept as they are written.
-/

namespace RelationNotation

/-- A TOML value. -/
inductive Toml where
  | string (t : Text)
  | integer (n : Int)
  | float (t : Text)
  | boolean (b : Bool)
  | dateTime (t : Text)
  | date (t : Text)
  | time (t : Text)
  | array (items : List Toml)
  | table (entries : List (Text × Toml))
  deriving Inhabited

abbrev TomlTable := List (Text × Toml)

/-- Why a text is not read as TOML. -/
inductive TomlFault where
  /-- The text is not TOML. -/
  | malformed
  /-- A decimal whole number has more digits than are read. -/
  | longInteger
  deriving DecidableEq

namespace TomlTable

def get? (t : TomlTable) (key : Text) : Option Toml := (t.find? fun e => e.1 == key).map (·.2)

/-- The table with a value for a key, in the key's old place or behind all others. -/
def put (key : Text) (x : Toml) : TomlTable → TomlTable
  | [] => [(key, x)]
  | e :: es => if e.1 = key then (key, x) :: es else e :: put key x es

end TomlTable

end RelationNotation
