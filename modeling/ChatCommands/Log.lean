import ChatCommands.Event
import ChatCommands.Text.Quoted

/-!
# The log

Which events are logged and how they are worded, and the setup of the log by the command line: a
level that verbosity decides, and one handler that is attached once.
-/

namespace ChatCommands

/-! ## Lines -/

def commandSource : String := "allen.commands.command"

def registrySource : String := "allen.commands.registry"

def routerSource : String := "allen.commands.router"

def Event.record? : Event → Option LogRecord
  | delivered d =>
    some ⟨commandSource,
      if d.isWhole then "Parameter '" ++ d.name ++ "' takes the whole input"
      else "Parameter '" ++ d.name ++ "' receives " ++ Text.quoted d.value⟩
  | validated => none
  | ran => none
  | gaveHelp command =>
    some ⟨commandSource, "Rendering general help for '" ++ command ++ "'"⟩
  | gaveTopic command topic =>
    some ⟨commandSource, "Rendering help for '" ++ command ++ " " ++ topic ++ "'"⟩
  | published command => some ⟨registrySource, "Registered command '" ++ command ++ "'"⟩
  | alreadyPublished command =>
    some ⟨registrySource, "Command '" ++ command ++ "' already registered"⟩
  | routed command label =>
    some ⟨routerSource, "Routing '" ++ command ++ "' to " ++ label⟩
  | opened _ => none
  | closed _ => none

def logOf (events : List Event) : List String :=
  (events.filterMap Event.record?).map LogRecord.line

/-! ## Setup -/

inductive LogLevel where
  | debug
  | info
deriving DecidableEq

/-- The setup of the log. -/
structure LogSetup where
  -- the level below which lines are dropped, once it is set
  level : Option LogLevel
  -- the number of handlers that render lines for the console
  handlers : Nat
  -- whether lines are passed on to the handlers of the host
  propagates : Bool
deriving DecidableEq

namespace LogSetup

def initial : LogSetup := ⟨none, 0, true⟩

/-- Set the level, and attach the handler if there is none. -/
def configure (setup : LogSetup) (verbose : Bool) : LogSetup :=
  let leveled := { setup with level := some (if verbose then .debug else .info) }
  if setup.handlers = 0 then { leveled with handlers := 1, propagates := false } else leveled

def pass (setup : LogSetup) (events : List Event) : List String :=
  if setup.level = some .debug then logOf events else []

end LogSetup

end ChatCommands
