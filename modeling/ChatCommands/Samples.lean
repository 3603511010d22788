import ChatCommands.Bundled.Echo
import ChatCommands.Bundled.Schedule
import ChatCommands.Value.Order

/-!
# Sample commands

Small commands that show what a command may do besides what the bundled ones do: answer with other
values than texts and maps, fail in its action or its check, come out of a function or an object,
and carry a name that another command has.
-/

namespace ChatCommands

namespace Samples

def plain (label name help : String) (run : Action Reply) : Command :=
  ⟨label, name, help, ∅, pure true, run⟩

/-- A window of time whose check fails where an end is missing. -/
def window : Command where
  label := "WindowCommand"
  name := "test"
  help := "A test command to prove that the library works"
  parameters := OrderedMap.ofList
    [("from", dateTimeParameter "from" "when to start" "F"),
      ("to", dateTimeParameter "to" "when to stop" "T")]
  validate := do
    let start ← Action.read "from"
    let stop ← Action.read "to"
    match start.before? stop with
    | .ok answer => return answer
    | .error failure => throw failure
  run := return .later do
    Action.write "executed" (.bool true)
    return .ofModel (← get)

/-- A command that answers with a number, and has no help but its name. -/
def number : Command := plain "NumberCommand" "number" "number" (return .now (.int 42))

def nothing : Command := plain "NoneCommand" "none" "Return nothing" (return .now .null)

/-- A command that answers with its empty model. -/
def emptyModel : Command :=
  plain "EmptyCommand" "empty" "Return an empty mapping" (do return .now (.ofModel (← get)))

def failing : Command :=
  plain "FailingCommand" "fail" "Always fails" (throw (.raised .lookup "calendar unavailable"))

/-- The echo command under the name of the schedule command. -/
def shadow : Command := { Echo.command with label := "_Shadow", name := "schedule" }

end Samples

end ChatCommands
