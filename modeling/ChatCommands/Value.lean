import ChatCommands.Calendar.DateTime
import ChatCommands.OrderedMap
import ChatCommands.Text.Quoted

/-!
# Values and models

The values that parameters write and commands return, and the model that collects them: an ordered
map from names to values. A value has a form for people, and inside lists and maps a form in which
texts are quoted.
-/

namespace ChatCommands

/-- A value that a parameter writes or a command returns. -/
inductive Value where
  | null
  | bool (value : Bool)
  | int (value : Int)
  | text (value : String)
  | moment (value : DateTime)
  | list (items : List Value)
  | map (entries : List (String × Value))
deriving Inhabited

/-- The values that the parameters of a command have written, by name. -/
abbrev Model := OrderedMap String Value

namespace Value

def ofModel (model : Model) : Value := .map model.entries

/-- Whether the value counts as true: it is neither `null`, `false`, zero nor empty. -/
def isTruthy : Value → Bool
  | null => false
  | bool value => value
  | int value => value ≠ 0
  | text value => value ≠ ""
  | moment _ => true
  | list items => !items.isEmpty
  | map entries => !entries.isEmpty

def kind : Value → String
  | null => "NoneType"
  | bool _ => "bool"
  | int _ => "int"
  | text _ => "str"
  | moment _ => "datetime.datetime"
  | list _ => "list"
  | map _ => "dict"

mutual

/-- The form of a value inside a list or a map. Texts are quoted there. -/
def inner : Value → String
  | null => "None"
  | bool value => if value then "True" else "False"
  | int value => toString value
  | text value => Text.quoted value
  | moment value => value.display
  | list items => "[" ++ String.intercalate ", " (innerItems items) ++ "]"
  | map entries => "\x7b" ++ String.intercalate ", " (innerEntries entries) ++ "\x7d"

def innerItems : List Value → List String
  | [] => []
  | item :: items => inner item :: innerItems items

def innerEntries : List (String × Value) → List String
  | [] => []
  | (key, value) :: entries =>
    (Text.quoted key ++ ": " ++ inner value) :: innerEntries entries

end

/-- The form of a value for people. A text stands as it is. -/
def display : Value → String
  | text value => value
  | value => inner value

end Value

end ChatCommands
