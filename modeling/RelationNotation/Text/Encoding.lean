import RelationNotation.Text.Basic

/-!
Text files: bytes in UTF-8, with lines that end in a newline, a carriage return or both. A byte
order mark is kept as a character.
-/

namespace RelationNotation.Text

def unifyLineEnds : Text → Text
  | [] => []
  | '\r' :: '\n' :: cs => '\n' :: unifyLineEnds cs
  | '\r' :: cs => '\n' :: unifyLineEnds cs
  | c :: cs => c :: unifyLineEnds cs

/-- The text of a file; bytes that are not UTF-8 have none. -/
def ofFile? (bytes : ByteArray) : Option Text :=
  (String.fromUTF8? bytes).map fun s => unifyLineEnds s.toList

end RelationNotation.Text
