import ChatCommands.Text.Search

/-!
# Arguments of the command line

`exec TEXT`, `commands` and `repl`, each with the options `--config-file PATH`, `--verbose` or `-v`,
and `--help`, in any order. Two dashes end the options. Asking for help is answered with help
whatever else is missing, as long as every option is known and complete.
-/

namespace ChatCommands

namespace CommandLine

/-- What the program is asked to do. -/
inductive Task where
  | exec (line : String)
  | list
  | converse
deriving DecidableEq

/-- A task with its options. -/
structure Invocation where
  task : Task
  configPath : Option String
  isVerbose : Bool
deriving DecidableEq

/-- What arguments ask for. -/
inductive Request where
  | help
  | misuse
  | invocation (invocation : Invocation)
deriving DecidableEq

/-! ## Options -/

def helpOption : String := "--help"

def optionsEnd : String := "--"

/-- Whether an argument is an option: it starts with a dash, and there is more. -/
def isOption (argument : String) : Bool :=
  Text.startsWith argument "-" && argument != "-"

/-- The options and the words behind a task. -/
structure Arguments where
  wantsHelp : Bool
  -- the path of the settings; a later one replaces an earlier one
  configPath : Option String
  isVerbose : Bool
  words : List String

namespace Arguments

def empty : Arguments := ⟨false, none, false, []⟩

/-- The arguments with an option that has no value; `none` if it is not known. Options of one letter
may be written together. -/
def flag? (a : Arguments) (option : String) : Option Arguments :=
  if option = helpOption then some { a with wantsHelp := true }
  else if option = "--verbose" then some { a with isVerbose := true }
  else if Text.startsWith option "--" then none
  else if (option.toList.drop 1).all (· == 'v') then some { a with isVerbose := true }
  else none

def withConfig (a : Arguments) (path : String) : Arguments := { a with configPath := some path }

def configOption : String := "--config-file"

/-- The path that is written behind the option in the same word. -/
def attachedPath? (argument : String) : Option String :=
  match Text.cutAt argument '=' with
  | (option, some path) => if option = configOption then some path else none
  | (_, none) => none

/-- The arguments with those behind a task; `none` if an option is unknown or lacks its value. -/
def read? (a : Arguments) : List String → Option Arguments
  | [] => some a
  | argument :: rest =>
    if argument = optionsEnd then some { a with words := a.words ++ rest }
    else if !isOption argument then read? { a with words := a.words ++ [argument] } rest
    else if argument = configOption then
      match rest with
      | [] => none
      | path :: rest => read? (a.withConfig path) rest
    else
      match attachedPath? argument with
      | some path => read? (a.withConfig path) rest
      | none => (a.flag? argument).bind fun a => read? a rest

end Arguments

/-! ## Tasks -/

def taskOf? (name : String) (words : List String) : Option Task :=
  match name, words with
  | "exec", [line] => some (.exec line)
  | "commands", [] => some .list
  | "repl", [] => some .converse
  | _, _ => none

def taskNames : List String := ["exec", "commands", "repl"]

def requestOf (name : String) (arguments : List String) : Request :=
  match Arguments.empty.read? arguments with
  | none => .misuse
  | some a =>
    if a.wantsHelp then .help
    else
      match taskOf? name a.words with
      | some task => .invocation ⟨task, a.configPath, a.isVerbose⟩
      | none => .misuse

/-- Whether `--help` stands in front of the task, and the arguments from the task on; `none` if an
option in front of it is unknown. -/
def leading? (wantsHelp : Bool) : List String → Option (Bool × List String)
  | [] => some (wantsHelp, [])
  | argument :: rest =>
    if argument = optionsEnd then some (wantsHelp, rest)
    else if argument = helpOption then leading? true rest
    else if isOption argument then none
    else some (wantsHelp, argument :: rest)

def asksHelp (arguments : List String) : Bool :=
  match leading? false arguments with
  | some (wantsHelp, _) => wantsHelp
  | none => false

/-- What arguments ask for. If no task follows the `--` that ends the options, what follows is
looked at for options once more. -/
def Request.read (arguments : List String) : Request :=
  match leading? false arguments with
  | none => .misuse
  | some (true, _) => .help
  | some (false, []) => .misuse
  | some (false, name :: rest) =>
    if taskNames.contains name then requestOf name rest
    else if asksHelp (name :: rest) then .help
    else .misuse

end CommandLine

end ChatCommands
