import ChatCommands.Startup
import ChatCommands.Workbench

/-!
# What a session works on

Everything that the steps of a session have made: the host with its stores, the workbench with its
commands and parameters, and the routers. Names lead to these things, and a name may be given anew.
A command that no name leads to any more is dropped, unless a router holds it to ask whether it
takes a line.
-/

namespace ChatCommands

/-- Something that a name leads to. -/
inductive Named where
  | command (id : CommandId)
  | parameter (id : ParameterId)
  | store (id : StoreId)
  | registry (registry : Registry)
  | router (number : Nat)

/-- A router, and the commands on the workbench that are its probes, in the order of its routes. A
probe that is no command is not on the workbench. -/
structure LiveRouter where
  router : Router
  probes : List (Option CommandId)

/-- Where the factory of a name is. -/
inductive FactoryPlace where
  | route (router index : Nat)
  | nowhere (requests : Nat)

/-- The state of a session. -/
structure Session where
  catalogue : Catalogue
  host : Host
  bench : Workbench
  routers : List LiveRouter
  named : OrderedMap String Named
  factories : OrderedMap String FactoryPlace

abbrev Sessioned (α : Type) := ExceptT Failure (StateM Session) α

namespace Session

/-- The session in which nothing has happened. -/
def start (catalogue : Catalogue) (files : FileTree) : Session :=
  ⟨catalogue, Host.start files files.refusals, Workbench.empty, [], ∅, ∅⟩

def withBench (s : Session) (bench : Workbench) : Session := { s with bench }

/-- Whether a router holds a command as a probe. -/
def isProbe (s : Session) (id : CommandId) : Bool :=
  s.routers.any fun r => r.probes.contains (some id)

/-- The session after a command has lost its name. -/
def release (s : Session) : Option Named → Session
  | some (.command id) => if s.isProbe id then s else s.withBench (s.bench.drop id)
  | _ => s

/-- The session with a name for something; what the name led to before loses it. -/
def withName (s : Session) (name : String) (thing : Named) : Session :=
  { s.release (s.named.get? name) with named := s.named.insert name thing }

def withoutName (s : Session) (name : String) : Session :=
  { s.release (s.named.get? name) with named := s.named.erase name }

/-- Names for things, of which only some have one. -/
def withNames (s : Session) : List (Option String) → List Named → Session
  | some name :: names, thing :: things => (s.withName name thing).withNames names things
  | none :: names, _ :: things => s.withNames names things
  | _, _ => s

/-! ## Probes -/

/-- A command put on the workbench with its parameters; the result are their numbers. -/
def putCommand (w : Workbench) (bare : Command) (parameters : List Parameter) :
    Except Failure (CommandId × List ParameterId × Workbench) := do
  let (id, w) := w.addBare bare
  let (parts, w) ← w.attachAll id parameters
  return (id, parts, w)

/-- The probe of a route put on the workbench, if it is a command that can be. -/
def putProbe (w : Workbench) (route : Route) : Option CommandId × Workbench :=
  match route.probe with
  | .object _ _ => (none, w)
  | .command c =>
    match putCommand w c c.parameters.values with
    | .ok (id, _, w) => (some id, w)
    | .error _ => (none, w)

/-- The probes of routes put on the workbench. -/
def putProbes (w : Workbench) : List Route → List (Option CommandId) × Workbench
  | [] => ([], w)
  | route :: routes =>
    let (id, w) := putProbe w route
    let (ids, w) := putProbes w routes
    (id :: ids, w)

/-- The session with a router in the place of another, the probes of whose new routes are put on the
workbench. -/
def withRouter (s : Session) (number : Nat) (live : LiveRouter) (router : Router) : Session :=
  let (added, bench) := putProbes s.bench (router.routes.drop live.probes.length)
  { s with bench, routers := s.routers.set number ⟨router, live.probes ++ added⟩ }

/-- The session with one more router, and its number. -/
def addRouter (s : Session) (router : Router) : Nat × Session :=
  let number := s.routers.length
  let bare : LiveRouter := ⟨Router.empty router.registry, []⟩
  let s : Session := { s with routers := s.routers ++ [bare] }
  (number, s.withRouter number bare router)

/-- A router whose probes are as the workbench has them. -/
def current (s : Session) (live : LiveRouter) : Router :=
  let routes := (live.router.routes.zip live.probes).map fun (route, id) =>
    match id.bind s.bench.command? with
    | some c => { route with probe := .command (s.bench.assembled c) }
    | none => route
  { live.router with routes }

end Session

/-! ## Work on the parts -/

namespace Sessioned

def named (name : String) : Sessioned Named := do
  match (← get).named.get? name with
  | some thing => return thing
  | none => throw (.missingKey name)

def command (name : String) : Sessioned (CommandId × LiveCommand) := do
  match ← named name with
  | .command id =>
    match (← get).bench.command? id with
    | some c => return (id, c)
    | none => throw (.missingKey name)
  | _ => throw (.missingKey name)

def parameter (name : String) : Sessioned (ParameterId × LiveParameter) := do
  match ← named name with
  | .parameter id =>
    match (← get).bench.parameters[id]? with
    | some p => return (id, p)
    | none => throw (.missingKey name)
  | _ => throw (.missingKey name)

def store (name : String) : Sessioned StoreId := do
  match ← named name with
  | .store id => return id
  | _ => throw (.missingKey name)

def registry (name : String) : Sessioned Registry := do
  match ← named name with
  | .registry r => return r
  | _ => throw (.missingKey name)

def router (name : String) : Sessioned (Nat × LiveRouter) := do
  match ← named name with
  | .router number =>
    match (← get).routers[number]? with
    | some live => return (number, live)
    | none => throw (.missingKey name)
  | _ => throw (.missingKey name)

def lift {α : Type} : Except Failure α → Sessioned α
  | .ok a => pure a
  | .error failure => throw failure

/-- The value of a check, or a failure with the violations. -/
def orInvalid {α : Type} (checked : Checked α) : Sessioned α :=
  lift (checked.mapError Failure.invalid)

def onHost {α : Type} (work : Hosted α) : Sessioned α :=
  ExceptT.mk fun s =>
    let (result, host) := work.run.run s.host
    (result, { s with host })

def changeBench (f : Workbench → Workbench) : Sessioned Unit :=
  modify fun s => s.withBench (f s.bench)

def onCommand {α : Type} (name : String) (task : Command → Work α) : Sessioned α := do
  let (id, _) ← command name
  let s ← get
  match s.bench.work id s.host.events task with
  | none => throw (.missingKey name)
  | some (result, events, bench) =>
    set { s with bench, host := { s.host with events } }
    lift result

def onRouter {α : Type} (name : String) (work : Routed α) : Sessioned α := do
  let (number, live) ← router name
  let s ← get
  let (result, site) := work.run.run ⟨s.current live, s.host⟩
  let after : Session := { s with host := site.host }
  set (after.withRouter number live site.router)
  lift result

end Sessioned

end ChatCommands
