import ChatCommands.Calendar.Iso8601
import ChatCommands.Command

/-!
# The schedule command

`schedule from <moment> to <moment> [note <text>]` schedules a window of time. Both ends are needed,
both or neither carry an offset, and the start comes strictly before the end.
-/

namespace ChatCommands

/-! ## Parameters -/

/-- A parameter that stores the moment that `ofIso?` reads under its own name. An empty text fails.
-/
def dateTimeParameter (name header detail : String) : Parameter where
  label := "DateTimeParameter"
  name := name
  wholeInput := false
  help := ⟨header, detail⟩
  convert := fun name value =>
    if value = "" then .error (.command (.emptyValue name))
    else
      match DateTime.ofIso? value with
      | none => .error (.command (.notADate name value))
      | some moment => .ok (Action.write name (.moment moment))

/-- A parameter that stores a text under `note`, whatever its own name is. -/
def noteParameter (name header detail : String) : Parameter where
  label := "NoteParameter"
  name := name
  wholeInput := false
  help := ⟨header, detail⟩
  convert := fun _ value => .ok (Action.write "note" (.text value))

namespace Schedule

/-! ## The command -/

def start : Parameter :=
  dateTimeParameter "from" "when to start" "When the window starts. ISO8601 date format expected."

def stop : Parameter :=
  dateTimeParameter "to" "when to stop" "When the window ends. ISO8601 date format expected."

def note : Parameter :=
  noteParameter "note" "optional note"
    "Free text attached to the window; must not contain parameter names."

/-- Two moments are a window if the first is before the second, which they are not if just one is
aware. -/
def isWindow (start stop : DateTime) : Bool :=
  (start.before? stop).getD false

/-- The moment that an end of the window is. Any other value fails with `noOffset`. -/
def momentOf : Value → Except Failure DateTime
  | .moment t => .ok t
  | other => .error (.noOffset other.kind)

/-- Whether a model holds a window. Both ends have to be there, and then to be moments. -/
def isValid (model : Model) : Except Failure Bool :=
  match model.get? "from", model.get? "to" with
  | some start, some stop => do
    let start ← momentOf start
    let stop ← momentOf stop
    return isWindow start stop
  | _, _ => .ok false

def command : Command where
  label := "ScheduleCommand"
  name := "schedule"
  help := "Schedule a time window"
  parameters := ((OrderedMap.empty.insert start.name start).insert stop.name stop).insert
    note.name note
  validate := do
    match isValid (← get) with
    | .ok answer => return answer
    | .error failure => throw failure
  run := do
    Action.write "scheduled" (.bool true)
    return .now (.ofModel (← get))

end Schedule

end ChatCommands
