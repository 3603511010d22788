import ChatCommands.Registry

/-!
# Routers

A router hands a line to the first of its commands that the line is addressed to. It holds, for each
command, one instance to ask whether it takes a line, and a factory: every line is handled by an
instance of its own.

A factory may make something that is no command. Nobody checks: the router holds it like a command,
and fails when it asks for what only a command has.
-/

namespace ChatCommands

/-! ## What factories make -/

/-- What a call of a factory makes. -/
inductive Product where
  | command (command : Command)
  -- an object of another class, which at most has a name
  | object (className : String) (name : Option String)

namespace Product

def name : Product → Except Failure String
  | command c => .ok c.name
  | object _ (some name) => .ok name
  | object className none => .error (.missingMember className "name")

/-- Whether the product takes a line. Only a command can tell. -/
def accepts : Product → String → Except Failure Bool
  | command c, line => .ok (c.accepts line)
  | object className _, _ => .error (.missingMember className "will_parse_command")

/-- No product behind this one is asked about the line: this one takes it, or cannot be asked. -/
def settles (p : Product) (line : String) : Bool :=
  match p.accepts line with
  | .ok takes => takes
  | .error _ => true

def label : Product → String
  | command c => c.label
  | object className _ => className

/-- The command that a product is; an object lacks `execute`. -/
def toCommand : Product → Except Failure Command
  | command c => .ok c
  | object className _ => .error (.missingMember className "execute")

end Product

/-- A source of instances of a command. -/
structure Factory where
  -- the outcome of the `n`-th request, counting from zero
  build : Nat → Except Failure Product
  requests : Nat

namespace Factory

/-- The factory whose requests all have the same outcome. -/
def constant (outcome : Except Failure Product) : Factory := ⟨fun _ => outcome, 0⟩

/-- The factory whose requests have the outcomes of a list. The last one repeats. -/
def ofList (first : Except Failure Product) (later : List (Except Failure Product)) : Factory :=
  ⟨fun n => (first :: later).getD n (later.getLastD first), 0⟩

def next (f : Factory) : Except Failure Product := f.build f.requests

def advance (f : Factory) : Factory := { f with requests := f.requests + 1 }

end Factory

/-! ## Routers -/

/-- A command that a router hands lines to. -/
structure Route where
  -- the instance that is asked whether it takes a line
  probe : Product
  -- where the instances that handle lines come from
  factory : Factory

/-- The routes in the order in which lines are offered to them, and the registry in which their
commands are published. -/
structure Router where
  registry : Option Registry
  routes : List Route

/-- A router together with the host it works on. -/
structure Site where
  router : Router
  host : Host

abbrev Routed (α : Type) := ExceptT Failure (StateM Site) α

namespace Routed

def onHost {α : Type} (work : Hosted α) : Routed α :=
  ExceptT.mk fun site =>
    let (result, host) := work.run.run site.host
    (result, { site with host })

def lift {α : Type} : Except Failure α → Routed α
  | .ok a => pure a
  | .error failure => throw failure

def modifyRoutes (f : List Route → List Route) : Routed Unit :=
  modify fun site => { site with router := { site.router with routes := f site.router.routes } }

end Routed

/-- Publish what a factory has made. An object with a name is looked up like a command, and lacks
`help` if it is to be written. -/
def Registry.publishProduct (r : Registry) : Product → Hosted Unit
  | .command c => do
    let _ ← r.addCommand c
  | .object className none => throw (.missingMember className "name")
  | .object className (some name) => do
    if ← r.isPublished name then
      Hosted.note (.alreadyPublished name)
    else
      throw (.missingMember className "help")

namespace Router

def empty (registry : Option Registry) : Router := ⟨registry, []⟩

def names (r : Router) : Except Failure (List String) := r.routes.mapM (·.probe.name)

/-- The name of the first command that takes the line. -/
def route (r : Router) (line : String) : Except Failure (Option String) :=
  match r.routes.find? (·.probe.settles line) with
  | none => .ok none
  | some route => do
    let _ ← route.probe.accepts line
    return some (← route.probe.name)

/-- Take up a command: build one instance of it, add the route, and publish the instance. -/
def register (factory : Factory) : Routed Product := do
  match factory.next with
  | .error failure => throw failure
  | .ok probe =>
    Routed.modifyRoutes (· ++ [⟨probe, factory.advance⟩])
    if let some registry := (← get).router.registry then
      Routed.onHost (registry.publishProduct probe)
    let name ← Routed.lift probe.name
    Routed.onHost (Hosted.note (.routed name probe.label))
    return probe

/-- The first route that `settles` the line is asked for an instance: the outcome, and the routes
after that. If its probe cannot be asked about the line, this is the outcome, and its factory is
left alone. -/
def request (line : String) : List Route → Option (Except Failure Product × List Route)
  | [] => none
  | route :: routes =>
    match route.probe.accepts line with
    | .error failure => some (.error failure, route :: routes)
    | .ok true =>
      some (route.factory.next, { route with factory := route.factory.advance } :: routes)
    | .ok false => (request line routes).map fun (outcome, later) => (outcome, route :: later)

/-- `execute` on a fresh command. The host notes the events. -/
def executeOn (c : Command) (line : String) : Hosted Value := do
  let (result, frame) := (c.execute line).run.run ⟨∅, (← get).events⟩
  modify fun host => { host with events := frame.events }
  match result with
  | .ok value => return value
  | .error failure => throw failure

/-- `execute` on an instance of the first command that takes the line. -/
def dispatch (line : String) : Routed Value := do
  match request line (← get).router.routes with
  | none => throw (.command (.unroutable line))
  | some (outcome, routes) =>
    Routed.modifyRoutes fun _ => routes
    let c ← Routed.lift (outcome >>= Product.toCommand)
    Routed.onHost (executeOn c line)

def close : Routed Unit := do
  match (← get).router.registry with
  | some registry => Routed.onHost registry.close
  | none => pure ()

end Router

end ChatCommands
