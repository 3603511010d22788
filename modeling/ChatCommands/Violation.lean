/-!
# Violations of a schema

What is wrong with a record that was given as data: each violation names the place, as a path of
field names and indices, and the rule that is broken there.
-/

namespace ChatCommands

inductive Place where
  | field (name : String)
  | index (n : Int)
deriving DecidableEq

/-- A rule of a schema. -/
inductive Rule where
  | isText
  | isUnicode
  | isList
  | isRecord (kind : String)
  -- the value is one of the words, of which the last is named apart
  | isOneOf (words : List String) (last : String)
  | isDeclared
  | isPresent
  | keyIsText
  | isFrozen
  | hasField (name : String)
deriving DecidableEq

namespace Rule

/-- The short name under which a broken rule is reported. -/
def code : Rule → String
  | isText => "string_type"
  | isUnicode => "string_unicode"
  | isList => "list_type"
  | isRecord _ => "model_type"
  | isOneOf _ _ => "enum"
  | isDeclared => "extra_forbidden"
  | isPresent => "missing"
  | keyIsText => "invalid_key"
  | isFrozen => "frozen_instance"
  | hasField _ => "no_such_attribute"

def message : Rule → String
  | isText => "Input should be a valid string"
  | isUnicode => "Input should be a valid string, unable to parse raw data as a unicode string"
  | isList => "Input should be a valid list"
  | isRecord kind => "Input should be a valid dictionary or instance of " ++ kind
  | isOneOf words last =>
    "Input should be " ++ String.intercalate ", " (words.map fun w => "'" ++ w ++ "'") ++ " or '" ++
      last ++ "'"
  | isDeclared => "Extra inputs are not permitted"
  | isPresent => "Field required"
  | keyIsText => "Keys should be strings"
  | isFrozen => "Instance is frozen"
  | hasField name => "Object has no attribute '" ++ name ++ "'"

end Rule

/-- A broken rule and the place where it is broken. -/
structure Violation where
  path : List Place
  rule : Rule
deriving DecidableEq

/-- The violation seen from the record that holds the place. -/
def Violation.under (place : Place) (v : Violation) : Violation :=
  { v with path := place :: v.path }

end ChatCommands
