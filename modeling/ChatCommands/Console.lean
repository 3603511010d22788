import ChatCommands.Failure
import ChatCommands.Text.Search
import ChatCommands.Value

/-!
# What is shown on the console

The items that the program hands to the console: lines of text, some of them in a style, and tables.
How they are laid out is up to the console.

The console takes some texts as they are and reads others as markup, in which words in brackets set
the style. The cells of a table and the lines of a conversation's frame are read; so a bracket in a
note or in the name of a command may make an item that cannot be shown.
-/

namespace ChatCommands

inductive Style where
  | problem
  | greeting
  | farewell
deriving DecidableEq

def Style.name : Style → String
  | problem => "bold red"
  | greeting => "cyan"
  | farewell => "yellow"

/-- An item that is shown. -/
inductive Shown where
  -- a text that is taken as it is, which may have a style
  | text (content : String) (style : Option Style)
  | markup (content : String) (style : Style)
  | table (title : Option String) (columns : List String) (rows : List (List String))
deriving DecidableEq

namespace Shown

/-- The answer of a command: a map as a table of its entries, and any other value as a text. -/
def ofValue : Value → Shown
  | .map entries =>
    .table none ["Field", "Value"] (entries.map fun (key, value) => [key, value.display])
  | value => .text value.display none

def ofFailure (failure : Failure) : Shown :=
  .text ("Error: " ++ failure.message) (some .problem)

def ofConfigFailure (failure : Failure) : Shown :=
  .text ("Invalid config: " ++ failure.message) (some .problem)

def ofCommands (rows : List (List String)) : Shown :=
  .table (some "Commands") ["Name", "Description"] rows

def greeting (names : List String) : Shown :=
  .markup ("Allen REPL. Commands: " ++ Text.join ", " names ++ ". Type 'exit' to leave.") .greeting

def farewell : Shown := .markup "bye" .farewell

def farewellAtEnd : Shown := .markup "\nbye" .farewell

/-- The texts of an item that are read as markup, in the order in which they are. A table is
measured column by column before its title is looked at. -/
def readTexts : Shown → List String
  | text _ _ => []
  | markup content _ => [content]
  | table title columns rows =>
    (columns.zipIdx.flatMap fun (column, i) => column :: rows.filterMap (·[i]?)) ++ title.toList

end Shown

/-! ## Consoles -/

/-- A console, by the texts that it cannot read as markup. A text without `[` is no markup, so it
can be read. -/
structure Console where
  -- what is wrong with a text, if it cannot be read
  fault? : String → Option String
  fault?_of_plain : ∀ text, '[' ∉ text.toList → fault? text = none

namespace Console

def lenient : Console := ⟨fun _ => none, fun _ _ => rfl⟩

/-- What is wrong with the first text of `readTexts` that cannot be read; `none` if the item is
shown. -/
def faultOf (c : Console) (item : Shown) : Option String := item.readTexts.findSome? c.fault?

end Console

end ChatCommands
