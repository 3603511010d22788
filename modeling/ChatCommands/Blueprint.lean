import ChatCommands.Bundled.Echo
import ChatCommands.Bundled.Schedule
import ChatCommands.Value.Order

/-!
# Commands described by data

A blueprint describes a command by data: its parameters out of a small set of kinds, a check of the
model, and an action. Building a blueprint may fail, as building any command may.
-/

namespace ChatCommands

/-! ## Blueprints -/

/-- What a parameter does with the text it is given. -/
inductive ParameterKind where
  | text
  | required
  | append
  -- store it under the name with `_dump` behind it
  | dump
  | keys
  | length
  | noop
  | fail (kind : FailureKind) (message : String)
  | moment
  | note
  -- the parameter of the echo command, whatever else is described
  | echo

structure ParameterBlueprint where
  name : String
  kind : ParameterKind
  wholeInput : Bool
  -- the header of its help; the name stands in for a header that counts as false
  header : Document
  detail : Document

/-- How a command checks its model. -/
inductive Check where
  | const (value : Value)
  | require (names : List String)
  -- the value of one name comes before that of another
  | less (first second : String)
  | fail (kind : FailureKind) (message : String)

inductive Answer where
  | model
  | const (value : Value)
  | field (name : String)

structure ActionBlueprint where
  isAwaited : Bool
  -- the failure that it raises before anything else
  failure : Option (FailureKind × String)
  flag : Option String
  answer : Answer

inductive Blueprint where
  | schedule
  | echo
  -- a command without an action, which cannot be built
  | abstract
  | fail (kind : FailureKind) (message : String)
  | custom (name : String) (help : Value) (parameters : List ParameterBlueprint) (check : Check)
    (action : ActionBlueprint)

/-! ## Parameters -/

/-- Append a text to the list under a name, which is made if need be. -/
def Action.append (name value : String) : Action Unit := do
  match (← get).get? name with
  | none => Action.write name (.list [.text value])
  | some (.list items) => Action.write name (.list (items ++ [.text value]))
  | some other => throw (.notAppendable other.kind)

def ParameterKind.convert : ParameterKind → (name value : String) → Except Failure (Action Unit)
  | text, name, value => .ok (Action.write name (.text value))
  | required, name, value =>
    if value = "" then .error (.command (.emptyValue name))
    else .ok (Action.write name (.text value))
  | append, name, value => .ok (Action.append name value)
  | dump, name, value => .ok (Action.write (name ++ "_dump") (.text value))
  | keys, name, _ => .ok do Action.write name (.list ((← get).keys.map Value.text))
  | length, name, value => .ok (Action.write name (.int value.length))
  | noop, _, _ => .ok (pure ())
  | fail kind message, _, _ => .error (.raised kind message)
  | moment, name, value => (dateTimeParameter name "" "").convert name value
  | note, name, value => (noteParameter name "" "").convert name value
  | echo, name, value => Echo.text.convert name value

def ParameterKind.label : ParameterKind → String
  | moment => "DateTimeParameter"
  | note => "NoteParameter"
  | echo => "TextParameter"
  | _ => "SpecParameter"

/-- A document counts as true if it is neither `null`, `false`, zero nor empty. -/
def Document.isTruthy : Document → Bool
  | null => false
  | bool value => value
  | int value => value ≠ 0
  | float value => !(value == 0.0)
  | text value => value ≠ ""
  | bytes value => !value.isEmpty
  | moment _ => true
  | list items => !items.isEmpty
  | set items => !items.isEmpty
  | map entries => !entries.isEmpty

def ParameterBlueprint.build (b : ParameterBlueprint) : Except Failure Parameter :=
  match b.kind with
  | .echo => .ok Echo.text
  | kind =>
    let header := if b.header.isTruthy then b.header else .text b.name
    match ParameterHelp.check [(.text "header", header), (.text "detail", b.detail)] with
    | .error violations => .error (.invalid violations)
    | .ok help => .ok ⟨kind.label, b.name, b.wholeInput, help, kind.convert⟩

/-! ## Commands -/

def Check.action : Check → Action Bool
  | const value => pure value.isTruthy
  | require names => do return names.all (← get).contains
  | less first second => do
    let a ← Action.read first
    let b ← Action.read second
    match a.before? b with
    | .ok answer => return answer
    | .error failure => throw failure
  | fail kind message => throw (.raised kind message)

def Answer.action : Answer → Action Value
  | model => do return .ofModel (← get)
  | const value => pure value
  | field name => Action.read name

def ActionBlueprint.work (b : ActionBlueprint) : Action Value := do
  if let some (kind, message) := b.failure then
    throw (.raised kind message)
  if let some name := b.flag then
    Action.write name (.bool true)
  b.answer.action

def ActionBlueprint.run (b : ActionBlueprint) : Action Reply :=
  if b.isAwaited then pure (.later b.work) else Reply.now <$> b.work

/-- A command without parameters, and the parameters that are then added to it. -/
def Command.apart (c : Command) : Command × List Parameter :=
  ({ c with parameters := ∅ }, c.parameters.values)

/-- The parts that a blueprint describes, as `Command.apart` gives them. -/
def Blueprint.parts : Blueprint → Except Failure (Command × List Parameter)
  | schedule => .ok Schedule.command.apart
  | echo => .ok Echo.command.apart
  | abstract => .error .abstractCommand
  | fail kind message => .error (.raised kind message)
  | custom name help parameters check action => do
    let parameters ← parameters.mapM ParameterBlueprint.build
    let help := Command.helpOr name help
    return (⟨"SpecCommand", name, help, ∅, check.action, action.run⟩, parameters)

def Blueprint.build (b : Blueprint) : Except Failure Command := do
  let (bare, parameters) ← b.parts
  return parameters.foldl Command.addParameter bare

end ChatCommands
