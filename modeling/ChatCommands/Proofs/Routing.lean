import ChatCommands.Proofs.CommandWork
import ChatCommands.Proofs.FirstAdded
import ChatCommands.Router

/-!
# Routing, dispatching and publishing agree

A router is asked in three ways which command a line belongs to: it names the command (`route`), it
has the line handled (`dispatch`), and it has published what the commands are for. This file proves
that the three agree for commands whose factories always build instances of one name and one help
(`routing_agrees`): a line is named after, and handled by, the first command whose name begins it,
and what is published under the name of a command that handles lines is the help of that command.
-/

namespace ChatCommands

namespace Router

/-! ## First matches -/

/-- `x` at index `i` is the first element of `xs` that passes the test. -/
def IsFirst {α : Type} (test : α → Bool) (xs : List α) (i : Nat) (x : α) : Prop :=
  xs[i]? = some x ∧ test x = true ∧ ∀ j < i, ∀ y, xs[j]? = some y → test y = false

section
variable {α : Type} {test : α → Bool} {xs : List α}

theorem find?_of_isFirst {i : Nat} {x : α} (h : IsFirst test xs i x) : xs.find? test = some x := by
  obtain ⟨hget, htest, hbefore⟩ := h
  obtain ⟨hlt, rfl⟩ := List.getElem?_eq_some_iff.1 hget
  rw [List.find?_eq_some_iff_getElem]
  refine ⟨htest, i, hlt, rfl, fun j hj => ?_⟩
  rw [hbefore j hj xs[j] (List.getElem?_eq_getElem (Nat.lt_trans hj hlt))]
  rfl

theorem IsFirst.not_forall {i : Nat} {x : α} (h : IsFirst test xs i x) :
    ¬∀ y ∈ xs, test y = false := by
  intro hnone
  have hfalse := hnone x (List.mem_of_getElem? h.1)
  rw [h.2.1] at hfalse
  cases hfalse

theorem exists_isFirst_or (test : α → Bool) (xs : List α) :
    (∃ i x, IsFirst test xs i x) ∨ ∀ x ∈ xs, test x = false := by
  cases hfind : xs.find? test with
  | none => exact .inr fun x hx => by simpa using List.find?_eq_none.1 hfind x hx
  | some x =>
    rw [List.find?_eq_some_iff_getElem] at hfind
    obtain ⟨htest, i, hlt, hget, hbefore⟩ := hfind
    refine .inl ⟨i, x, hget ▸ List.getElem?_eq_getElem hlt, htest, fun j hj y hy => ?_⟩
    obtain ⟨hlt', rfl⟩ := List.getElem?_eq_some_iff.1 hy
    simpa using hbefore j hj

end

/-! ## Asking for an instance -/

/-- The route after its factory has been asked once more. -/
def asked (route : Route) : Route := { route with factory := route.factory.advance }

theorem asked_ne (route : Route) : asked route ≠ route := by
  intro h
  have hrequests : route.factory.requests + 1 = route.factory.requests :=
    congrArg (fun route : Route => route.factory.requests) h
  omega

section
variable {line : String} {routes : List Route}

theorem accepts_of_settles_eq_false {p : Product} (h : p.settles line = false) :
    p.accepts line = .ok false := by
  cases p with
  | command c => exact congrArg Except.ok h
  | object className name => cases h

/-- `request` asks the first route that takes the line for an instance, and no other. -/
theorem request_of_isFirst {i : Nat} {route : Route}
    (h : IsFirst (·.probe.settles line) routes i route)
    (haccepts : route.probe.accepts line = .ok true) :
    request line routes = some (route.factory.next, routes.set i (asked route)) := by
  induction routes generalizing i with
  | nil => cases h.1
  | cons head routes ih =>
    obtain ⟨hget, htest, hbefore⟩ := h
    cases i with
    | zero =>
      obtain rfl : head = route := Option.some.inj hget
      rw [request, haccepts]
      rfl
    | succ i =>
      have hhead := accepts_of_settles_eq_false (hbefore 0 (Nat.succ_pos i) head rfl)
      have hlater := ih ⟨hget, htest, fun j hj other hother =>
        hbefore (j + 1) (Nat.succ_lt_succ hj) other hother⟩
      rw [request, hhead]
      simp only [hlater]
      rfl

/-- `request` fails at a first route that cannot be asked about the line, and asks no factory. -/
theorem request_of_isFirst_of_error {i : Nat} {route : Route} {failure : Failure}
    (h : IsFirst (·.probe.settles line) routes i route)
    (haccepts : route.probe.accepts line = .error failure) :
    request line routes = some (.error failure, routes) := by
  induction routes generalizing i with
  | nil => cases h.1
  | cons head routes ih =>
    obtain ⟨hget, htest, hbefore⟩ := h
    cases i with
    | zero =>
      obtain rfl : head = route := Option.some.inj hget
      rw [request, haccepts]
    | succ i =>
      have hhead := accepts_of_settles_eq_false (hbefore 0 (Nat.succ_pos i) head rfl)
      have hlater := ih ⟨hget, htest, fun j hj other hother =>
        hbefore (j + 1) (Nat.succ_lt_succ hj) other hother⟩
      rw [request, hhead]
      simp only [hlater]
      rfl

theorem request_of_none (h : ∀ route ∈ routes, route.probe.settles line = false) :
    request line routes = none := by
  induction routes with
  | nil => rfl
  | cons head routes ih =>
    have hlater := ih fun route hroute => h route (List.mem_cons_of_mem _ hroute)
    rw [request, accepts_of_settles_eq_false (h head List.mem_cons_self)]
    simp only [hlater]
    rfl

end

/-! ## Dispatching -/

section
variable {site : Site} {line : String}

theorem run_onHost {α : Type} (work : Hosted α) (site : Site) :
    (Routed.onHost work).run.run site =
      ((work.run.run site.host).1, { site with host := (work.run.run site.host).2 }) := rfl

theorem run_modifyRoutes (f : List Route → List Route) (site : Site) :
    (Routed.modifyRoutes f).run.run site =
      (.ok (), { site with router := { site.router with routes := f site.router.routes } }) := rfl

/-- `executeOn` an addressed line is `execute` from a fresh frame, with the events noted behind the
earlier ones. -/
theorem run_executeOn {c : Command} (haccepts : c.accepts line = true) (h : Host) :
    (executeOn c line).run.run h =
      ((Command.start (c.execute line)).1,
        { h with events := h.events ++ (Command.start (c.execute line)).2.events }) := by
  have hrun := (Command.contained_execute haccepts).run_eq ∅ h.events
  simp only [executeOn, run_run_bind, run_run_get, hrun, Command.start]
  cases ((c.execute line).run.run ⟨∅, []⟩).1 <;> rfl

theorem run_dispatch_of_none
    (h : ∀ route ∈ site.router.routes, route.probe.settles line = false) :
    (dispatch line).run.run site = (.error (.command (.unroutable line)), site) := by
  simp only [dispatch, run_run_bind, run_run_get, request_of_none h]
  rfl

/-- `dispatch` executes the line on the next instance of the first route that takes it. -/
theorem run_dispatch_of_isFirst {i : Nat} {route : Route}
    (h : IsFirst (·.probe.settles line) site.router.routes i route)
    (hprobe : route.probe.accepts line = .ok true) {c : Command}
    (hnext : route.factory.next = .ok (.command c)) (haccepts : c.accepts line = true) :
    (dispatch line).run.run site =
      ((Command.start (c.execute line)).1,
        ⟨{ site.router with routes := site.router.routes.set i (asked route) },
          { site.host with
            events := site.host.events ++ (Command.start (c.execute line)).2.events }⟩) := by
  have hlift : (Routed.lift (route.factory.next >>= Product.toCommand)) = pure c := by
    rw [hnext]
    rfl
  simp only [dispatch, run_run_bind, run_run_get, request_of_isFirst h hprobe, hlift,
    run_modifyRoutes, run_run_pure, run_onHost, run_executeOn haccepts]

end

/-! ## Routers that have been set up -/

/-- A factory whose instances all have one name and one help. -/
structure SteadyFactory where
  factory : Factory
  name : String
  help : String
  builds : ∀ n, ∃ c, factory.build n = .ok (.command c) ∧ c.name = name ∧ c.help = help

def SteadyFactory.takes (line : String) (f : SteadyFactory) : Bool := Text.startsWith line f.name

inductive Step where
  | register (f : SteadyFactory)
  | dispatch (line : String)

def Step.factory? : Step → Option SteadyFactory
  | .register f => some f
  | _ => none

def Step.after (site : Site) : Step → Site
  | .register f => ((Router.register f.factory).run.run site).2
  | .dispatch line => ((Router.dispatch line).run.run site).2

/-- What is known of a route. -/
structure Face where
  name : String
  help : String
  -- the outcome of each request for an instance
  build : Nat → Except Failure Product

def SteadyFactory.face (f : SteadyFactory) : Face := ⟨f.name, f.help, f.factory.build⟩

/-- The face of a route whose probe is a command. -/
def faceOf (route : Route) : Option Face :=
  match route.probe with
  | .command c => some ⟨c.name, c.help, route.factory.build⟩
  | .object _ _ => none

/-- The call by which a route has been published. -/
def callOf (route : Route) : Option Registry.Call :=
  match route.probe with
  | .command c => some (.add c)
  | .object _ _ => none

/-- The router has the commands of the factories `fs`, all published in a registry that is denied
nothing. -/
structure Holds (registry : Registry) (fs : List SteadyFactory) (site : Site) : Prop where
  registry_eq : site.router.registry = some registry
  faces_eq : site.router.routes.map faceOf = fs.map fun f => some f.face
  serves : registry.Serves (site.router.routes.filterMap callOf) site.host
  denied?_eq_none : ∀ statement, site.host.denied? registry.store statement = none

section
variable {registry : Registry} {fs : List SteadyFactory} {site : Site} {line : String} {i : Nat}
  {f : SteadyFactory} {route : Route}

theorem Holds.exists_route (hholds : Holds registry fs site) (hget : fs[i]? = some f) :
    ∃ route, site.router.routes[i]? = some route ∧ faceOf route = some f.face := by
  have hface := congrArg (·[i]?) hholds.faces_eq
  simp only [List.getElem?_map, hget, Option.map_some] at hface
  exact Option.map_eq_some_iff.1 hface

theorem Holds.exists_factory (hholds : Holds registry fs site)
    (hget : site.router.routes[i]? = some route) :
    ∃ f, fs[i]? = some f ∧ faceOf route = some f.face := by
  have hface := congrArg (·[i]?) hholds.faces_eq
  simp only [List.getElem?_map, hget, Option.map_some] at hface
  obtain ⟨f, hf, hsame⟩ := Option.map_eq_some_iff.1 hface.symm
  exact ⟨f, hf, hsame.symm⟩

theorem exists_probe_of_faceOf {face : Face} (hface : faceOf route = some face) :
    ∃ c, route.probe = .command c ∧ c.name = face.name ∧ c.help = face.help ∧
      route.factory.build = face.build := by
  unfold faceOf at hface
  cases hprobe : route.probe with
  | command c =>
    rw [hprobe] at hface
    cases hface
    exact ⟨c, rfl, rfl, rfl, rfl⟩
  | object className name => rw [hprobe] at hface; cases hface

theorem accepts_of_faceOf (hface : faceOf route = some f.face) (line : String) :
    route.probe.accepts line = .ok (f.takes line) := by
  obtain ⟨c, hprobe, hname, -⟩ := exists_probe_of_faceOf hface
  rw [hprobe, Product.accepts, Command.accepts, hname]
  rfl

theorem settles_of_faceOf (hface : faceOf route = some f.face) (line : String) :
    route.probe.settles line = f.takes line := by
  rw [Product.settles, accepts_of_faceOf hface]

theorem name_of_faceOf (hface : faceOf route = some f.face) : route.probe.name = .ok f.name := by
  obtain ⟨c, hprobe, hname, -⟩ := exists_probe_of_faceOf hface
  rw [hprobe, Product.name, hname]
  rfl

/-- The first factory whose name begins the line has the first route that takes it. -/
theorem Holds.isFirst_route (hholds : Holds registry fs site)
    (hfirst : IsFirst (SteadyFactory.takes line) fs i f) :
    ∃ route, IsFirst (·.probe.settles line) site.router.routes i route ∧
      faceOf route = some f.face := by
  obtain ⟨hget, htakes, hbefore⟩ := hfirst
  obtain ⟨route, hroute, hface⟩ := hholds.exists_route hget
  refine ⟨route, ⟨hroute, (settles_of_faceOf hface line).trans htakes, fun j hj other hother => ?_⟩,
    hface⟩
  obtain ⟨g, hg, hsame⟩ := hholds.exists_factory hother
  exact (settles_of_faceOf hsame line).trans (hbefore j hj g hg)

theorem Holds.settles_eq_false (hholds : Holds registry fs site)
    (hnone : ∀ f ∈ fs, f.takes line = false) :
    ∀ route ∈ site.router.routes, route.probe.settles line = false := by
  intro route hroute
  obtain ⟨i, hget⟩ := List.mem_iff_getElem?.1 hroute
  obtain ⟨f, hf, hface⟩ := hholds.exists_factory hget
  exact (settles_of_faceOf hface line).trans (hnone f (List.mem_of_getElem? hf))

theorem exists_next (hface : faceOf route = some f.face) :
    ∃ c, route.factory.next = .ok (.command c) ∧ c.name = f.name := by
  obtain ⟨-, -, -, -, hbuild⟩ := exists_probe_of_faceOf hface
  obtain ⟨c, hc, hname, -⟩ := f.builds route.factory.requests
  exact ⟨c, by rw [Factory.next, hbuild, ← hc]; rfl, hname⟩

/-- `dispatch` executes the line on the next instance of the first factory whose name begins it. -/
theorem Holds.run_dispatch (hholds : Holds registry fs site)
    (hfirst : IsFirst (SteadyFactory.takes line) fs i f) :
    ∃ route c, site.router.routes[i]? = some route ∧ faceOf route = some f.face ∧
      route.factory.next = .ok (.command c) ∧ c.accepts line = true ∧
      (dispatch line).run.run site =
        ((Command.start (c.execute line)).1,
          ⟨{ site.router with routes := site.router.routes.set i (asked route) },
            { site.host with
              events := site.host.events ++ (Command.start (c.execute line)).2.events }⟩) := by
  obtain ⟨route, hroute, hface⟩ := hholds.isFirst_route hfirst
  obtain ⟨c, hnext, hname⟩ := exists_next hface
  have haccepts : c.accepts line = true := by
    rw [Command.accepts, hname]
    exact hfirst.2.1
  have hprobe : route.probe.accepts line = .ok true := by
    rw [accepts_of_faceOf hface, hfirst.2.1]
  exact ⟨route, c, hroute.1, hface, hnext, haccepts,
    run_dispatch_of_isFirst hroute hprobe hnext haccepts⟩

/-! ## What a step keeps -/

/-- `register` adds a factory to those of `Holds`. -/
theorem holds_register (hholds : Holds registry fs site) (f : SteadyFactory) :
    ∃ probe later, (register f.factory).run.run site = (.ok probe, later) ∧
      Holds registry (fs ++ [f]) later := by
  obtain ⟨probe, hprobe, hname, hhelp⟩ := f.builds f.factory.requests
  have hnext : f.factory.next = .ok (.command probe) := hprobe
  rcases Registry.addCommand_ends hholds.serves probe with
    ⟨⟨statement, failure, hdenied, -⟩, -⟩ | ⟨host, hrun, hserves, hleaves⟩
  · rw [hholds.denied?_eq_none] at hdenied
    cases hdenied
  · have hpublish :
        (registry.publishProduct (.command probe)).run.run site.host = (.ok (), host) := by
      simp only [Registry.publishProduct, run_run_bind, hrun, run_run_pure]
    refine ⟨.command probe, ⟨⟨some registry,
      site.router.routes ++ [⟨.command probe, f.factory.advance⟩]⟩,
      host.noted (.routed probe.name probe.label)⟩, ?_, rfl, ?_, ?_, ?_⟩
    · simp only [register, hnext, run_run_bind, run_modifyRoutes, run_run_get, hholds.registry_eq,
        run_onHost, hpublish, Product.name, Routed.lift, Product.label, Hosted.run_note,
        run_run_pure]
    · have hface : faceOf ⟨.command probe, f.factory.advance⟩ = some f.face := by
        rw [SteadyFactory.face, ← hname, ← hhelp]
        rfl
      rw [List.map_append, List.map_append, hholds.faces_eq, List.map_singleton, hface,
        List.map_singleton]
    · rw [List.filterMap_append]
      exact hserves
    · intro statement
      rw [← hholds.denied?_eq_none statement, ← hleaves.denied?_eq]
      rfl

theorem map_set_asked {β : Type} (g : Route → β) (hg : ∀ route, g (asked route) = g route)
    {routes : List Route} (hget : routes[i]? = some route) :
    (routes.set i (asked route)).map g = routes.map g := by
  obtain ⟨hlt, rfl⟩ := List.getElem?_eq_some_iff.1 hget
  have hself : (routes.map g).set i (g routes[i]) = routes.map g := by
    rw [← List.getElem_map g (h := by simpa using hlt), List.set_getElem_self]
  rw [List.map_set, hg, hself]

/-- `dispatch` keeps `Holds`. -/
theorem holds_dispatch (hholds : Holds registry fs site) (line : String) :
    Holds registry fs ((dispatch line).run.run site).2 := by
  rcases exists_isFirst_or (SteadyFactory.takes line) fs with ⟨i, f, hfirst⟩ | hnone
  · -- one factory has been asked once more, and only events are added to the host
    obtain ⟨route, c, hget, -, -, -, hrun⟩ := hholds.run_dispatch hfirst
    rw [hrun]
    refine ⟨hholds.registry_eq, ?_, ?_, hholds.denied?_eq_none⟩
    · exact (map_set_asked faceOf (fun _ => rfl) hget).trans hholds.faces_eq
    · have hcalls := congrArg (List.filterMap id) (map_set_asked callOf (fun _ => rfl) hget)
      rw [List.filterMap_map, List.filterMap_map, Function.id_comp] at hcalls
      exact hcalls.symm ▸ hholds.serves
  · rw [run_dispatch_of_none (hholds.settles_eq_false hnone)]
    exact hholds

theorem holds_empty {h : Host} (hempty : h.content? registry.store = some (.memory Memory.empty)) :
    Holds registry [] ⟨empty (some registry), h⟩ :=
  ⟨rfl, rfl, ⟨.memory Memory.empty, hempty, trivial, Registry.catalogues_of_empty fun _ => rfl⟩,
    Host.denied?_of_memory hempty⟩

/-- After any steps the router holds the factories that they have registered. -/
theorem holds_after (hholds : Holds registry fs site) (steps : List Step) :
    Holds registry (fs ++ steps.filterMap Step.factory?) (steps.foldl Step.after site) := by
  induction steps generalizing fs site with
  | nil => rwa [List.filterMap_nil, List.append_nil]
  | cons step steps ih =>
    cases step with
    | register f =>
      obtain ⟨probe, later, hrun, hlater⟩ := holds_register hholds f
      have hafter := ih hlater
      rw [List.append_assoc] at hafter
      rw [List.foldl_cons, Step.after, hrun]
      exact hafter
    | dispatch line => exact ih (holds_dispatch hholds line)

/-! ## Agreement -/

/-- `dispatch` of the line asks the factory at index `i` for an instance. -/
def Handles (site : Site) (line : String) (i : Nat) : Prop :=
  ∃ route, site.router.routes[i]? = some route ∧
    ((dispatch line).run.run site).2.router.routes[i]? = some (asked route)

/-- `Handles` is to be the first factory whose name begins the line. -/
theorem Holds.handles_iff (hholds : Holds registry fs site) (hget : fs[i]? = some f) :
    Handles site line i ↔ IsFirst (SteadyFactory.takes line) fs i f := by
  constructor
  · rintro ⟨route, hroute, hasked⟩
    rcases exists_isFirst_or (SteadyFactory.takes line) fs with ⟨j, g, hfirst⟩ | hnone
    · -- the factory that has been asked is the first that takes the line
      obtain ⟨other, c, -, -, -, -, hrun⟩ := hholds.run_dispatch hfirst
      by_cases hji : j = i
      · subst hji
        obtain rfl : f = g := Option.some.inj (hget.symm.trans hfirst.1)
        exact hfirst
      · rw [hrun, List.getElem?_set_ne hji, hroute, Option.some.injEq] at hasked
        exact absurd hasked.symm (asked_ne route)
    · rw [run_dispatch_of_none (hholds.settles_eq_false hnone), hroute, Option.some.injEq] at hasked
      exact absurd hasked.symm (asked_ne route)
  · intro hfirst
    obtain ⟨route, c, hroute, -, -, -, hrun⟩ := hholds.run_dispatch hfirst
    obtain ⟨hlt, -⟩ := List.getElem?_eq_some_iff.1 hroute
    refine ⟨route, hroute, ?_⟩
    rw [hrun]
    exact List.getElem?_set_self hlt

/-- The three ways in which a router tells which command a line belongs to agree. -/
structure Agrees (registry : Registry) (fs : List SteadyFactory) (site : Site) : Prop where
  -- a line is named after the first factory whose name begins it, and the next instance of that
  -- factory executes it. The line is addressed to the instance, so if it is refused as one that is
  -- not, then by the parameters, the check or the action of the command
  of_isFirst : ∀ line i f, IsFirst (SteadyFactory.takes line) fs i f →
    site.router.route line = .ok (some f.name) ∧
      ∃ n c, site.router.routes[i]?.map Route.factory = some ⟨f.factory.build, n⟩ ∧
        f.factory.build n = .ok (.command c) ∧ c.accepts line = true ∧
        ((dispatch line).run.run site).1 = (Command.start (c.execute line)).1 ∧
        ∀ name text, ((dispatch line).run.run site).1 = .error (.command (.unaddressed name text)) →
          c.CanRaise (.command (.unaddressed name text))
  -- a line that no name begins is named after none
  route_eq_none_iff : ∀ line, site.router.route line = .ok none ↔ ∀ f ∈ fs, f.takes line = false
  -- just those are refused by the router, which then asks no factory
  refused_iff : ∀ line, site.router.route line = .ok none ↔
    (dispatch line).run.run site = (.error (.command (.unroutable line)), site)
  -- a command handles lines exactly when no name in front of it begins its name
  exists_handles_iff : ∀ i f, fs[i]? = some f →
    ((∃ line, Handles site line i) ↔
      ∀ j < i, ∀ g, fs[j]? = some g → Text.startsWith f.name g.name = false)
  -- what is published under the name of a command that handles lines is its help
  published : ∀ line i f, fs[i]? = some f → Handles site line i →
    (registry.get f.name).run.run site.host = (.ok (some ⟨f.name, f.help⟩), site.host)

theorem startsWith_iff {text start : String} :
    Text.startsWith text start = true ↔ start.toList <+: text.toList := by
  rw [Text.startsWith, List.isPrefixOf_iff_prefix]

def SteadyFactory.entry (f : SteadyFactory) : Entry := ⟨f.name, f.help⟩

theorem Holds.filterMap_entry? (hholds : Holds registry fs site) :
    (site.router.routes.filterMap callOf).filterMap Registry.Call.entry? =
      fs.map SteadyFactory.entry := by
  have hentry (route : Route) : (callOf route).bind Registry.Call.entry? =
      (faceOf route).map fun face => ⟨face.name, face.help⟩ := by
    rw [callOf, faceOf]
    cases route.probe <;> rfl
  calc (site.router.routes.filterMap callOf).filterMap Registry.Call.entry?
      = (site.router.routes.map faceOf).filterMap (·.map fun face => ⟨face.name, face.help⟩) := by
        rw [List.filterMap_filterMap, List.filterMap_map]
        exact congrArg (List.filterMap · site.router.routes) (funext hentry)
    _ = fs.map SteadyFactory.entry := by
        rw [hholds.faces_eq, List.filterMap_map, ← List.filterMap_eq_map]
        rfl

theorem Holds.firstAdded_eq (hholds : Holds registry fs site)
    (hfirst : IsFirst (SteadyFactory.takes line) fs i f) :
    Registry.firstAdded (site.router.routes.filterMap callOf) f.name = some ⟨f.name, f.help⟩ := by
  obtain ⟨hget, htakes, hbefore⟩ := hfirst
  rw [Registry.firstAdded, hholds.filterMap_entry?]
  refine find?_of_isFirst (i := i) ⟨?_, decide_eq_true rfl, fun j hj e he => ?_⟩
  · rw [List.getElem?_map, hget]
    rfl
  · -- a command of the same name in front would take the line
    rw [List.getElem?_map] at he
    obtain ⟨g, hg, rfl⟩ := Option.map_eq_some_iff.1 he
    rw [SteadyFactory.entry, decide_eq_false_iff_not]
    intro (hsame : g.name = f.name)
    have hnot := hbefore j hj g hg
    rw [SteadyFactory.takes, hsame] at hnot
    rw [SteadyFactory.takes, hnot] at htakes
    cases htakes

theorem Holds.route_of_isFirst (hholds : Holds registry fs site)
    (hfirst : IsFirst (SteadyFactory.takes line) fs i f) :
    site.router.route line = .ok (some f.name) := by
  obtain ⟨route, hroute, hface⟩ := hholds.isFirst_route hfirst
  rw [Router.route, find?_of_isFirst hroute]
  simp only [accepts_of_faceOf hface, name_of_faceOf hface]
  rfl

theorem Holds.route_of_none (hholds : Holds registry fs site)
    (hnone : ∀ f ∈ fs, f.takes line = false) : site.router.route line = .ok none := by
  have hfind := List.find?_eq_none.2 fun route hmem =>
    Bool.not_eq_true _ ▸ hholds.settles_eq_false hnone route hmem
  rw [Router.route, hfind]

theorem Holds.route_eq_none_iff (hholds : Holds registry fs site) :
    site.router.route line = .ok none ↔ ∀ f ∈ fs, f.takes line = false := by
  rcases exists_isFirst_or (SteadyFactory.takes line) fs with ⟨i, f, hfirst⟩ | hnone
  · rw [hholds.route_of_isFirst hfirst]
    exact iff_of_false nofun hfirst.not_forall
  · exact iff_of_true (hholds.route_of_none hnone) hnone

theorem Holds.run_dispatch_eq_iff (hholds : Holds registry fs site) :
    (dispatch line).run.run site = (.error (.command (.unroutable line)), site) ↔
      ∀ f ∈ fs, f.takes line = false := by
  rcases exists_isFirst_or (SteadyFactory.takes line) fs with ⟨i, f, hfirst⟩ | hnone
  · -- the factory has been asked, so the router is not as it was
    obtain ⟨route, hget, hasked⟩ := (hholds.handles_iff hfirst.1).2 hfirst
    refine iff_of_false (fun hrun => ?_) hfirst.not_forall
    rw [hrun, hget, Option.some.injEq] at hasked
    exact asked_ne route hasked.symm
  · exact iff_of_true (run_dispatch_of_none (hholds.settles_eq_false hnone)) hnone

theorem Holds.exists_handles_iff (hholds : Holds registry fs site) (hget : fs[i]? = some f) :
    (∃ line, Handles site line i) ↔
      ∀ j < i, ∀ g, fs[j]? = some g → Text.startsWith f.name g.name = false := by
  constructor
  · rintro ⟨line, hhandles⟩ j hj g hg
    obtain ⟨-, htakes, hbefore⟩ := (hholds.handles_iff hget).1 hhandles
    -- a name that begins this one would begin the line as well
    have hnot := hbefore j hj g hg
    rw [Bool.eq_false_iff, ne_eq, SteadyFactory.takes, startsWith_iff] at hnot
    rw [SteadyFactory.takes, startsWith_iff] at htakes
    rw [Bool.eq_false_iff, ne_eq, startsWith_iff]
    exact fun hstart => hnot (hstart.trans htakes)
  · -- the name is a line of its own
    intro hbefore
    refine ⟨f.name, (hholds.handles_iff hget).2 ⟨hget, ?_, hbefore⟩⟩
    exact startsWith_iff.2 (List.prefix_refl _)

theorem Holds.agrees (hholds : Holds registry fs site) : Agrees registry fs site where
  of_isFirst line i f hfirst := by
    obtain ⟨route, c, hget, hface, hnext, haccepts, hrun⟩ := hholds.run_dispatch hfirst
    obtain ⟨-, -, -, -, hbuild⟩ := exists_probe_of_faceOf hface
    have hbuild : route.factory.build = f.factory.build := hbuild
    refine ⟨hholds.route_of_isFirst hfirst, route.factory.requests, c, ?_, hbuild ▸ hnext,
      haccepts, by rw [hrun], fun name text hfail => ?_⟩
    · rw [hget, Option.map_some, ← hbuild]
    · rw [hrun] at hfail
      cases (Command.contained_execute haccepts).possible_of_run _ _ hfail with
      | raised _ h => exact h
  route_eq_none_iff _ := hholds.route_eq_none_iff
  refused_iff _ := hholds.route_eq_none_iff.trans hholds.run_dispatch_eq_iff.symm
  exists_handles_iff _ _ hget := hholds.exists_handles_iff hget
  published line i f hget hhandles := by
    have hfirst := (hholds.handles_iff hget).1 hhandles
    obtain ⟨c, hopen, -, hcatalogues⟩ := hholds.serves
    rcases hcatalogues.get_ends hopen f.name with ⟨statement, failure, hdenied, -⟩ | hrun
    · rw [hholds.denied?_eq_none] at hdenied
      cases hdenied
    · rw [hrun, hholds.firstAdded_eq hfirst]

/-- `route`, `dispatch` and the published entries agree, for every router that starts on an empty
registry in memory, after any registrations and any lines. -/
theorem routing_agrees {h : Host} (hempty : h.content? registry.store = some (.memory Memory.empty))
    (steps : List Step) :
    Agrees registry (steps.filterMap Step.factory?)
      (steps.foldl Step.after ⟨empty (some registry), h⟩) :=
  (holds_after (holds_empty hempty) steps).agrees

end

def echoFactory (name help : String) : SteadyFactory where
  factory := Factory.constant (.ok (.command { Echo.command with name, help }))
  name := name
  help := help
  builds _ := ⟨_, rfl, rfl, rfl⟩

/-- A name that begins a later one, and a name that is there twice. -/
def shadowing : List Step :=
  [.register (echoFactory "say" "first"), .register (echoFactory "sayings" "second"),
    .dispatch "sayings and more", .register (echoFactory "say" "third")]

theorem routing_agrees_of_shadowing :
    Registry.fresh.content? 0 = some (.memory Memory.empty) ∧
      Agrees ⟨0, "p"⟩ (shadowing.filterMap Step.factory?)
        (shadowing.foldl Step.after ⟨empty (some ⟨0, "p"⟩), Registry.fresh⟩) :=
  have hempty : Registry.fresh.content? 0 = some (.memory Memory.empty) := rfl
  ⟨hempty, routing_agrees (by exact hempty) shadowing⟩

end Router

end ChatCommands
