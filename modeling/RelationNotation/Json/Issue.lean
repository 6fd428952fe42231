/-!
Issues: what may be wrong with a JSON value that is read as something else, and where.
-/

namespace RelationNotation

/-- What is wrong with a part of a JSON value. -/
inductive IssueKind where
  /-- No JSON text, or one with too many levels. -/
  | unreadable
  /-- A required member is absent. -/
  | missing
  /-- A value other than the fixed ones. -/
  | literal
  /-- No string where one belongs. -/
  | string
  /-- Nothing that could be a whole number. -/
  | integer
  /-- A string that writes no whole number. -/
  | integerText
  /-- A whole number of too many digits, or a decimal beyond the whole numbers that are read. -/
  | integerSize
  /-- An infinite number where a whole number belongs. -/
  | infinite
  /-- A number with a fraction where a whole number belongs. -/
  | fraction
  /-- Nothing that could be a truth value. -/
  | boolean
  /-- A string or number that stands for no truth value. -/
  | booleanText
  /-- No name of the kinds there are. -/
  | enumeration
  /-- No object where a model belongs. -/
  | model
  /-- No array where one belongs. -/
  | array
  /-- Fewer items than there must be. -/
  | tooShort
  /-- No object where one of several models belongs. -/
  | choice
  /-- An object that does not say which of several models it is. -/
  | untagged
  /-- An object that says it is none of the models that may stand there. -/
  | unknownTag
  /-- Fields that do not go together. -/
  | conflict (reason : String)
  deriving DecidableEq

/-- One step from a JSON value to a part of it. -/
inductive JsonStep where
  | field (name : String)
  | index (i : Nat)
  deriving DecidableEq

/-- What is wrong, and where. -/
structure Issue where
  kind : IssueKind
  location : List JsonStep
  deriving DecidableEq

namespace IssueKind

def text : IssueKind → String
  | .unreadable => "json_invalid"
  | .missing => "missing"
  | .literal => "literal_error"
  | .string => "string_type"
  | .integer => "int_type"
  | .integerText => "int_parsing"
  | .integerSize => "int_parsing_size"
  | .infinite => "finite_number"
  | .fraction => "int_from_float"
  | .boolean => "bool_type"
  | .booleanText => "bool_parsing"
  | .enumeration => "enum"
  | .model => "model_type"
  | .array => "tuple_type"
  | .tooShort => "too_short"
  | .choice => "dict_type"
  | .untagged => "union_tag_not_found"
  | .unknownTag => "union_tag_invalid"
  | .conflict _ => "value_error"

def message? : IssueKind → Option String
  | .conflict reason => some ("Value error, " ++ reason)
  | _ => none

end IssueKind

end RelationNotation
