/-!
# Events

What happens while the program works, in order. Parameters being handed their values, a model being
validated and an action being run are events; so are the publishing and the routing of commands and
the opening and closing of stores. Some events are worth a line in the log.
-/

namespace ChatCommands

structure Delivery where
  -- the key under which the command holds the parameter
  key : String
  name : String
  -- whether the value is the whole argument text
  isWhole : Bool
  value : String
deriving DecidableEq

/-- Something that happened. -/
inductive Event where
  | delivered (delivery : Delivery)
  | validated
  | ran
  | gaveHelp (command : String)
  -- a command answers with the help of a parameter
  | gaveTopic (command topic : String)
  | published (command : String)
  | alreadyPublished (command : String)
  -- a router takes up a command, which has the label
  | routed (command label : String)
  | opened (store : Nat)
  | closed (store : Nat)
deriving DecidableEq

/-! ## The log -/

/-- A line of the log: the part of the program that wrote it, and what it says. -/
structure LogRecord where
  source : String
  message : String
deriving DecidableEq

/-- All lines of the log are of the level `DEBUG`. -/
def LogRecord.line (r : LogRecord) : String :=
  "DEBUG " ++ r.source ++ ": " ++ r.message

end ChatCommands
