import ChatCommands.Blueprint
import ChatCommands.Host

/-!
# Steps of a session

A session works on commands, parameters, stores, registries and routers that are known by names.
Each step makes, uses or forgets some of them, and is answered by an output or a failure.
-/

namespace ChatCommands

namespace Session

/-- An attribute that is assigned anew, with its value. -/
inductive Change where
  | name (value : String)
  | help (value : String)
  | wholeInput (value : Bool)

/-- Work that a command is asked for. -/
inductive Job where
  | execute
  | parse
  | renderHelp
  | accepts

/-- A step on a command or a parameter. -/
inductive CommandStep where
  -- make a command; its parameters may have names
  | make (id : String) (blueprint : Blueprint) (parameters : List (Option String))
  | makeParameter (id : String) (blueprint : ParameterBlueprint)
  | add (command parameter : String)
  -- show the parameter that a command holds under a key
  | lookup (command key : String)
  -- tell whether a command holds the parameter under the key
  | holds (command parameter key : String)
  -- the name of the command that a parameter belongs to
  | owner (parameter : String)
  | modelOf (parameter : String)
  | helpOf (parameter : String)
  | convert (parameter text : String)
  | assignHelp (parameter field : String) (value : Document)
  | makeHelp (fields : List (Document × Document))
  | describe (id : String)
  -- assign an attribute of a command or a parameter
  | assign (id : String) (change : Change)
  | write (command key : String) (value : Value)
  | drop (id : String)
  | work (command : String) (job : Job) (line : String)

/-- A step on a store or a registry. -/
inductive StoreStep where
  -- open a store: in memory, or a database at a path
  | make (id : String) (path : Option String)
  | get (store key : String)
  | set (store key : String) (hash : Hash)
  | keys (store start : String)
  -- make a registry: over a store, or one of its own
  | makeRegistry (id : String) (store keyPrefix : Option String)
  | keyOf (registry name : String)
  | publish (registry command : String)
  | entry (registry name : String)
  | entries (registry : String)
  | assignEntry (name description : Document) (field : String)

/-- A step on a router. -/
inductive RouterStep where
  -- make a router, with a registry if one is named
  | make (id : String) (registry : Option String)
  | build (id : String) (settings : Document)
  -- take up a command, whose instances come from blueprints, the last of which repeats
  | register (router : String) (first : Blueprint) (later : List Blueprint) (id : Option String)
  | requests (id : String)
  | hasRegistry (router : String)
  | names (router : String)
  | route (router line : String)
  | dispatch (router line : String)

/-- A step of a session. -/
inductive Step where
  | command (step : CommandStep)
  | store (step : StoreStep)
  | router (step : RouterStep)
  | close (id : String)

end Session

end ChatCommands
