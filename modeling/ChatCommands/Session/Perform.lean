import ChatCommands.Session.State
import ChatCommands.Session.Step

/-!
# Performing the steps of a session

The answer to each step. A step that fails leaves what it has done so far, and the next step goes on
from there.
-/

namespace ChatCommands

namespace Session

/-- What a step is answered with. -/
inductive Output where
  | nothing
  | flag (value : Bool)
  | number (value : Nat)
  | text (value : Option String)
  | texts (values : List String)
  | value (value : Value)
  | hash (entries : Option (List (String × String)))
  | help (help : ParameterHelp)
  | entry (entry : Option Entry)
  | entries (entries : List Entry)

/-! ## Steps on commands and parameters -/

/-- Make a command with its parameters, and give them their names. -/
def makeCommand (id : String) (blueprint : Blueprint) (names : List (Option String)) :
    Sessioned Output := do
  let (bare, parameters) ← Sessioned.lift blueprint.parts
  let (number, parts, bench) ← Sessioned.lift (putCommand (← get).bench bare parameters)
  modify fun s =>
    ((s.withBench bench).withNames names (parts.map Named.parameter)).withName id (.command number)
  return .nothing

/-- Add a parameter to a command; the answer is the keys of the command. -/
def addParameter (command parameter : String) : Sessioned Output := do
  let (id, _) ← Sessioned.command command
  let (part, _) ← Sessioned.parameter parameter
  let bench ← Sessioned.lift ((← get).bench.attach id part)
  modify fun s => s.withBench bench
  return .texts (← Sessioned.command command).2.parts.keys

/-- The form of the parameter that a command holds under a key. -/
def lookup (command key : String) : Sessioned Output := do
  let (_, c) ← Sessioned.command command
  let part := (c.parts.get? key).bind ((← get).bench.parameters[·]?)
  return .text (part.map (·.body.display))

/-- The command that a parameter belongs to. -/
def ownerOf (parameter : String) : Sessioned LiveCommand := do
  let (_, p) ← Sessioned.parameter parameter
  return (← Sessioned.lift ((← get).bench.ownerOf p)).2

/-- Have a parameter convert a text; the answer is the model that it writes to. -/
def convert (parameter text : String) : Sessioned Output := do
  let (part, _) ← Sessioned.parameter parameter
  let (result, bench) := (← get).bench.parseWith part text
  modify fun s => s.withBench bench
  Sessioned.lift result
  return .value (.ofModel (← ownerOf parameter).model)

/-- Assign a field of the help of a parameter; the answer is the help. -/
def assignHelp (parameter field : String) (value : Document) : Sessioned Output := do
  let (part, p) ← Sessioned.parameter parameter
  let help ← Sessioned.orInvalid (p.body.help.assign field value)
  Sessioned.changeBench fun w =>
    w.modifyParameter part fun p => { p with body := { p.body with help } }
  return .help help

def Change.onCommand (change : Change) (c : Command) : Command :=
  match change with
  | name value => { c with name := value }
  | help value => { c with help := value }
  | wholeInput _ => c

/-- A parameter with an attribute assigned. -/
def Change.onParameter (change : Change) (p : Parameter) : Parameter :=
  match change with
  | name value => { p with name := value }
  | help _ => p
  | wholeInput value => { p with wholeInput := value }

/-- Assign an attribute of what a name leads to. -/
def assign (id : String) (change : Change) : Sessioned Output := do
  match ← Sessioned.named id with
  | .command number =>
    Sessioned.changeBench fun w =>
      w.modifyCommand number fun c => { c with body := change.onCommand c.body }
  | .parameter number =>
    Sessioned.changeBench fun w =>
      w.modifyParameter number fun p => { p with body := change.onParameter p.body }
  | _ => throw (.missingKey id)
  return .nothing

def describe (id : String) : Sessioned Output := do
  match ← Sessioned.named id with
  | .command _ => return .text (some (← Sessioned.command id).2.body.display)
  | _ => return .text (some (← Sessioned.parameter id).2.body.display)

def doJob (command : String) (job : Job) (line : String) : Sessioned Output := do
  match job with
  | .execute => return .value (← Sessioned.onCommand command (·.execute line))
  | .parse => return .value (.ofModel (← Sessioned.onCommand command (·.parse line)))
  | .renderHelp => return .text (some (← Sessioned.onCommand command (·.renderHelp line)))
  | .accepts => return .flag ((← Sessioned.command command).2.body.accepts line)

/-- Perform a step on a command or a parameter. -/
def performCommand : CommandStep → Sessioned Output
  | .make id blueprint names => makeCommand id blueprint names
  | .makeParameter id blueprint => do
    let p ← Sessioned.lift blueprint.build
    let (number, bench) := (← get).bench.addParameter p
    modify fun s => (s.withBench bench).withName id (.parameter number)
    return .nothing
  | .add command parameter => addParameter command parameter
  | .lookup command key => lookup command key
  | .holds command parameter key => do
    let (_, c) ← Sessioned.command command
    let (part, _) ← Sessioned.parameter parameter
    return .flag (c.parts.get? key == some part)
  | .owner parameter => do return .text (some (← ownerOf parameter).body.name)
  | .modelOf parameter => do return .value (.ofModel (← ownerOf parameter).model)
  | .helpOf parameter => do return .help (← Sessioned.parameter parameter).2.body.help
  | .convert parameter text => convert parameter text
  | .assignHelp parameter field value => assignHelp parameter field value
  | .makeHelp fields => do return .help (← Sessioned.orInvalid (ParameterHelp.check fields))
  | .describe id => describe id
  | .assign id change => assign id change
  | .write command key value => do
    let (id, _) ← Sessioned.command command
    Sessioned.changeBench fun w =>
      w.modifyCommand id fun c => { c with model := c.model.insert key value }
    return .value (.ofModel (← Sessioned.command command).2.model)
  | .drop id => do
    let _ ← Sessioned.command id
    modify fun s => s.withoutName id
    return .nothing
  | .work command job line => doJob command job line

/-! ## Steps on stores and registries -/

/-- Perform a step on a store or a registry. -/
def performStore : StoreStep → Sessioned Output
  | .make id path => do
    let number ←
      Sessioned.onHost (match path with
        | none => Hosted.openMemory
        | some path => Hosted.openDatabase path)
    modify fun s => s.withName id (.store number)
    return .nothing
  | .get store key => do
    let hash ← Sessioned.onHost (Hosted.getHash (← Sessioned.store store) key)
    return .hash (hash.map fun hash => hash.entries.mergeSort fun a b => !Text.before b.1 a.1)
  | .set store key hash => do
    Sessioned.onHost (Hosted.setHash (← Sessioned.store store) key hash)
    return .nothing
  | .keys store start => do
    let keys ← Sessioned.onHost (Hosted.keys (← Sessioned.store store) start)
    return .texts (keys.mergeSort fun a b => !Text.before b a)
  | .makeRegistry id store keyPrefix => do
    let store ←
      match store with
      | some store => Sessioned.store store
      | none => Sessioned.onHost Hosted.openMemory
    let registry : Registry := ⟨store, keyPrefix.getD Registry.defaultPrefix⟩
    modify fun s => s.withName id (.registry registry)
    return .nothing
  | .keyOf registry name => do return .text (some ((← Sessioned.registry registry).key name))
  | .publish registry command => do
    let registry ← Sessioned.registry registry
    let (_, c) ← Sessioned.command command
    return .flag (← Sessioned.onHost (registry.addCommand c.body))
  | .entry registry name => do
    return .entry (← Sessioned.onHost ((← Sessioned.registry registry).get name))
  | .entries registry => do
    return .entries (← Sessioned.onHost (← Sessioned.registry registry).list)
  | .assignEntry name description field => do
    let entry ← Sessioned.orInvalid
      (Entry.check [(.text "name", name), (.text "description", description)])
    return .entry (some (← Sessioned.orInvalid (entry.assign field)))

/-! ## Steps on routers -/

/-- Note where the factory of a name is: at the last route of the router, if the router has more
routes than before. -/
def noteFactory (router id : String) (before : Nat) : Sessioned Unit := do
  let (number, live) ← Sessioned.router router
  let place : FactoryPlace :=
    if before < live.router.routes.length then .route number before else .nowhere 1
  modify fun s => { s with factories := s.factories.insert id place }

/-- Have a router take up a command. The probe and the factory are given the name. -/
def register (router : String) (factory : Factory) (id : Option String) : Sessioned Output := do
  let before := (← Sessioned.router router).2.router.routes.length
  let outcome ←
    Sessioned.onRouter router (ExceptT.mk fun site =>
      let (result, site) := (Router.register factory).run.run site
      (.ok result, site))
  if let some id := id then
    noteFactory router id before
  let probe ← Sessioned.lift outcome
  if let some id := id then
    match (← Sessioned.router router).2.probes[before]? with
    | some (some number) => modify fun s => s.withName id (.command number)
    | _ => pure ()
  return .text (some (← Sessioned.lift probe.name))

/-- How many instances the factory of a name was asked for. -/
def requests (id : String) : Sessioned Output := do
  let s ← get
  match s.factories.get? id with
  | some (.nowhere count) => return .number count
  | some (.route number index) =>
    let route := (s.routers[number]?).bind fun live => live.router.routes[index]?
    return .number ((route.map (·.factory.requests)).getD 0)
  | none => throw (.missingKey id)

/-- Build a router from settings; the answer is the names of its commands. -/
def buildRouter (id : String) (settings : Document) : Sessioned Output := do
  let settings ← Sessioned.orInvalid (Settings.check settings)
  let router ← Sessioned.onHost (settings.openRouter (← get).catalogue)
  modify fun s =>
    let (number, s) := s.addRouter router
    let s := s.withName id (.router number)
    match router.registry with
    | some registry => s.withName (id ++ ".registry") (.registry registry)
    | none => s
  return .texts (← Sessioned.lift router.names)

def performRouter : RouterStep → Sessioned Output
  | .make id registry => do
    let registry ←
      match registry with
      | some registry => some <$> Sessioned.registry registry
      | none => pure none
    modify fun s =>
      let (number, s) := s.addRouter (Router.empty registry)
      s.withName id (.router number)
    return .nothing
  | .build id settings => buildRouter id settings
  | .register router first later id =>
    let made (b : Blueprint) := b.build.map Product.command
    register router (Factory.ofList (made first) (later.map made)) id
  | .requests id => requests id
  | .hasRegistry router => do
    return .flag (← Sessioned.router router).2.router.registry.isSome
  | .names router => do
    return .texts (← Sessioned.onRouter router do Routed.lift (← get).router.names)
  | .route router line => do
    return .text (← Sessioned.onRouter router do Routed.lift ((← get).router.route line))
  | .dispatch router line => do
    return .value (← Sessioned.onRouter router (Router.dispatch line))

/-! ## All steps -/

def close (id : String) : Sessioned Output := do
  match ← Sessioned.named id with
  | .store number => Sessioned.onHost (Hosted.close number)
  | .registry registry => Sessioned.onHost registry.close
  | .router _ => Sessioned.onRouter id Router.close
  | _ => throw (.missingKey id)
  return .nothing

def performStep : Step → Sessioned Output
  | .command step => performCommand step
  | .store step => performStore step
  | .router step => performRouter step
  | .close id => close id

/-- The answer to a step. -/
structure Answer where
  outcome : Except Failure Output
  -- the command that has worked on a line, as it is afterwards
  worker : Option LiveCommand
  -- the help of a parameter whose assignment has failed
  help : Option ParameterHelp
  events : List Event

/-- The command that a step has had work on a line. -/
def workerOf (s : Session) : Step → Option LiveCommand
  | .command (.work _ .accepts _) => none
  | .command (.work command _ _) => ((Sessioned.command command).run.run s).1.toOption.map Prod.snd
  | _ => none

/-- The help that a step has tried to assign. -/
def helpOf (s : Session) : Step → Option ParameterHelp
  | .command (.assignHelp parameter _ _) =>
    ((Sessioned.parameter parameter).run.run s).1.toOption.map (·.2.body.help)
  | _ => none

/-- The session whose databases refuse what its files make them refuse. -/
def refreshed (s : Session) : Session :=
  { s with host := { s.host with refusals := s.host.files.refusals } }

/-- The answer to a step, and the session after it. -/
def perform (s : Session) (step : Step) : Answer × Session :=
  let (outcome, after) := (performStep step).run.run s.refreshed
  (⟨outcome, after.workerOf step, after.helpOf step,
    after.host.events.drop s.host.events.length⟩, after)

/-- The answers to steps, one after another. -/
def performAll (s : Session) : List Step → List Answer
  | [] => []
  | step :: steps =>
    let (answer, s) := s.perform step
    answer :: s.performAll steps

end Session

end ChatCommands
