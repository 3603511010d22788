import ChatCommands.Event
import ChatCommands.Parameter
import ChatCommands.Text.Blank
import ChatCommands.Text.Search

/-!
# Commands

A command is addressed by a line that starts with its name; one character behind the name is
skipped, and the rest is the argument text. Parameters that take the whole input are handed the
argument text as it is. The words of the argument text are then read one after another: the name of
another parameter ends the value of the parameter before it, which is handed its value there and
then. At last the model is validated, and the action is run.

A line that mentions the word `help` anywhere is answered with help and never acted on.
-/

namespace ChatCommands

/-! ## Work of a command -/

/-- What a command works on: its model, and the events so far. -/
structure Frame where
  model : Model
  events : List Event

abbrev Work (α : Type) := ExceptT Failure (StateM Frame) α

namespace Work

def note (event : Event) : Work Unit :=
  modify fun frame => { frame with events := frame.events ++ [event] }

def act {α : Type} (action : Action α) : Work α :=
  ExceptT.mk fun frame =>
    let (result, model) := action.run.run frame.model
    (result, { frame with model })

def reset : Work Unit :=
  modify fun frame => { frame with model := ∅ }

end Work

/-- The answer of an action: a value at once, or work that yields one and is awaited. -/
inductive Reply where
  | now (value : Value)
  | later (action : Action Value)

def Reply.settle : Reply → Action Value
  | now value => pure value
  | later action => action

/-! ## Commands -/

/-- A command with its parameters, its check of the model as a whole (`validate`), and its action
(`run`). -/
structure Command where
  label : String
  name : String
  help : String
  -- the parameters under the names they were added by
  parameters : OrderedMap String Parameter
  validate : Action Bool
  run : Action Reply

namespace Command

def helpWord : String := "help"

/-- The help of a command: what it is given, or its name if that `isTruthy` is false. -/
def helpOr (name : String) (help : Value) : String :=
  if help.isTruthy then help.display else name

/-- The command with one more parameter, which replaces the one of the same name. -/
def addParameter (c : Command) (p : Parameter) : Command :=
  { c with parameters := c.parameters.insert p.name p }

/-- A line is addressed to a command if it starts with the name, whatever comes behind it. -/
def accepts (c : Command) (line : String) : Bool :=
  Text.startsWith line c.name

/-- All of a line behind the name and one more character. -/
def argumentText (c : Command) (line : String) : String :=
  Text.drop line (c.name.length + 1)

def display (c : Command) : String :=
  c.label ++ "(name=" ++ Text.quoted c.name ++ ")"

/-! ## Reading a line -/

def deliver (p : Parameter) (delivery : Delivery) : Work Unit := do
  Work.note (.delivered delivery)
  Work.act (p.parse delivery.value)

/-- Hand the argument text as it is to the parameters with `wholeInput`, in order. -/
def deliverWhole (c : Command) (arguments : String) : Work Unit :=
  c.parameters.entries.forM fun (key, p) =>
    if p.wholeInput then deliver p ⟨key, p.name, true, arguments⟩ else pure ()

/-- How far the words of an argument text have been read. -/
structure Scan where
  -- the parameter whose value is being read, with the key it was found under
  current : Option (String × Parameter)
  -- what has been read of the value: words with a space behind each
  buffer : String

namespace Scan

def start : Scan := ⟨none, ""⟩

def push (scan : Scan) (word : String) : Scan :=
  { scan with buffer := scan.buffer ++ (word ++ " ") }

/-- Hand `buffer` to `current`, if there is a current parameter. -/
def finish (scan : Scan) : Work Unit :=
  match scan.current with
  | none => pure ()
  | some (key, p) => deliver p ⟨key, p.name, false, Text.trim scan.buffer⟩

end Scan

/-- Read one word. The key of a parameter without `wholeInput` ends the value before it and starts
its own; every other word belongs to the value. -/
def scanWord (c : Command) (scan : Scan) (word : String) : Work Scan :=
  match c.parameters.get? word with
  | none => pure (scan.push word)
  | some p =>
    if p.wholeInput then pure (scan.push word)
    else do
      scan.finish
      return ⟨some (word, p), ""⟩

/-- Cut the words of the argument text into values, and hand each to its parameter as soon as it
ends. -/
def deliverSegments (c : Command) (arguments : String) : Work Unit := do
  let scan ← (Text.words arguments).foldlM c.scanWord Scan.start
  scan.finish

def ensureAddressed (c : Command) (line : String) : Work Unit :=
  if c.accepts line then pure () else throw (.command (.unaddressed c.name line))

/-- Validate the model, and fail with `rejected` if its values do not go together. -/
def ensureValid (c : Command) : Work Unit := do
  Work.note .validated
  let valid ← Work.act c.validate
  if valid then pure () else throw (.command .rejected)

/-- Fill the model anew from an addressed line, and validate it. -/
def fill (c : Command) (line : String) : Work Unit := do
  Work.reset
  let arguments := c.argumentText line
  c.deliverWhole arguments
  c.deliverSegments arguments
  c.ensureValid

/-- Fill the model from a line without running the action. The result is the model. -/
def parse (c : Command) (line : String) : Work Model := do
  c.ensureAddressed line
  c.fill line
  return (← get).model

/-! ## Help -/

/-- What a line asks help for: all behind the name, less the first `help` and the blanks around. -/
def topic (c : Command) (line : String) : String :=
  Text.trim (Text.eraseFirst (Text.drop line c.name.length) helpWord)

def listingLine (p : Parameter) : String :=
  "\t- " ++ p.name ++ ": " ++ p.help.header ++ "\n"

/-- The general help: what the command is for, and a listing of its parameters. -/
def generalHelp (c : Command) : String :=
  c.help ++ "\n\nParameters:\n" ++ String.join (c.parameters.values.map listingLine)

def parameterHelp (p : Parameter) : String :=
  p.name ++ ":\n\t" ++ p.help.detail

/-- Answer a line that asks for help: with the general help if `topic` is empty. -/
def renderHelp (c : Command) (line : String) : Work String := do
  let topic := c.topic line
  if topic = "" then
    Work.note (.gaveHelp c.name)
    return c.generalHelp
  else
    match c.parameters.get? topic with
    | none => throw (.command (.unknownTopic c.name topic))
    | some p =>
      Work.note (.gaveTopic c.name topic)
      return parameterHelp p

/-! ## Executing -/

def perform (c : Command) : Work Value := do
  Work.note .ran
  let reply ← Work.act c.run
  Work.act reply.settle

/-- Answer a line: with help if it mentions `help`, and otherwise by `fill` and `perform`. -/
def execute (c : Command) (line : String) : Work Value := do
  c.ensureAddressed line
  if Text.contains line helpWord then
    return .text (← c.renderHelp line)
  else
    c.fill line
    c.perform

/-- Work on a fresh command: the outcome, the model and the events. -/
def start {α : Type} (work : Work α) : Except Failure α × Frame :=
  work.run.run ⟨∅, []⟩

end Command

end ChatCommands
