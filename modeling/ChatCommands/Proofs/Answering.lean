import ChatCommands.Proofs.RunningShells

/-!
# Answering lines

A router whose factories always make the same answers a line in a way that is up to the line and to
what they make alone (`Offers.run_dispatch`), and so does a shell on a given console (`run_answer`):
nothing that has been handled before makes a difference, and nothing is left behind but events and
what is shown.
-/

namespace ChatCommands

/-! ## Routers -/

namespace Router

/-- The router asks `products` in order, and the factory of each makes it anew. -/
structure Offers (products : List Product) (router : Router) : Prop where
  probes_eq : router.routes.map Route.probe = products
  -- the instances that handle lines are like those that are asked
  build_eq : ∀ route ∈ router.routes, ∀ n, route.factory.build n = .ok route.probe

/-- What comes of a line that is offered to `products`, and the events by then. -/
def response (products : List Product) (line : String) : Except Failure Value × List Event :=
  match products.find? (·.settles line) with
  | none => (.error (.command (.unroutable line)), [])
  | some (.command c) =>
    ((Command.start (c.execute line)).1, (Command.start (c.execute line)).2.events)
  | some (.object className _) => (.error (.missingMember className "will_parse_command"), [])

variable {products : List Product}

theorem offers_map_routeOf (registry : Option Registry) (products : List Product) :
    Offers products ⟨registry, products.map routeOf⟩ := by
  constructor
  · rw [List.map_map]
    exact List.map_id products
  · intro route hroute n
    obtain ⟨p, -, rfl⟩ := List.mem_map.1 hroute
    rfl

theorem Offers.names_eq {router : Router} (hoffers : Offers products router) :
    router.names = products.mapM Product.name := by
  rw [names, ← hoffers.probes_eq, List.mapM_map]
  rfl

theorem exists_names_of_forall {products : List Product}
    (h : ∀ p ∈ products, ∃ name, p.name = .ok name) :
    ∃ names, products.mapM Product.name = .ok names := by
  induction products with
  | nil => exact ⟨[], rfl⟩
  | cons p products ih =>
    obtain ⟨⟨name, hname⟩, hrest⟩ := List.forall_mem_cons.1 h
    obtain ⟨names, hnames⟩ := ih hrest
    refine ⟨name :: names, ?_⟩
    rw [List.mapM_cons, hname, hnames]
    rfl

theorem Offers.set_asked {router : Router} (hoffers : Offers products router) {i : Nat}
    {route : Route} (hget : router.routes[i]? = some route) :
    Offers products { router with routes := router.routes.set i (asked route) } := by
  constructor
  · exact (map_set_asked Route.probe (fun _ => rfl) hget).trans hoffers.probes_eq
  · intro other hother
    rcases List.mem_or_eq_of_mem_set hother with hmem | rfl
    · exact hoffers.build_eq other hmem
    · exact hoffers.build_eq route (List.mem_of_getElem? hget)

theorem not_isOfStore_of_mem_response {line : String} {event : Event}
    (hevent : event ∈ (response products line).2) : event.isOfStore = false := by
  rw [response] at hevent
  split at hevent
  · cases hevent
  · rename_i c _
    have hdealings := c.keeps_execute line ⟨∅, []⟩
    exact Bool.eq_false_iff.2 (List.filter_eq_nil_iff.1 hdealings event hevent)
  · cases hevent

theorem run_dispatch_of_object {site : Site} {line className : String} {name : Option String}
    {i : Nat} {route : Route} (hfirst : IsFirst (·.probe.settles line) site.router.routes i route)
    (hprobe : route.probe = .object className name) :
    (dispatch line).run.run site =
      (.error (.missingMember className "will_parse_command"), site) := by
  have hrequest := request_of_isFirst_of_error hfirst
    (show route.probe.accepts line = .error (.missingMember className "will_parse_command") by
      rw [hprobe]; rfl)
  simp only [dispatch, run_run_bind, run_run_get, hrequest, run_modifyRoutes]
  rfl

/-- `dispatch` comes to `response`, whatever has been handled before. -/
theorem Offers.run_dispatch {site : Site} (hoffers : Offers products site.router) (line : String) :
    ∃ router, (dispatch line).run.run site = ((response products line).1,
        ⟨router, { site.host with
          events := site.host.events ++ (response products line).2 }⟩) ∧
      router.registry = site.router.registry ∧ Offers products router := by
  have hfind : products.find? (·.settles line) =
      (site.router.routes.find? (·.probe.settles line)).map Route.probe := by
    rw [← hoffers.probes_eq, List.find?_map]
    rfl
  rcases exists_isFirst_or (·.probe.settles line) site.router.routes with
    ⟨i, route, hfirst⟩ | hnone
  · rw [find?_of_isFirst hfirst, Option.map_some] at hfind
    cases hprobe : route.probe with
    | object className name =>
      rw [hprobe] at hfind
      refine ⟨site.router, ?_, rfl, hoffers⟩
      rw [run_dispatch_of_object hfirst hprobe, response, hfind]
      simp only [List.append_nil]
    | command c =>
      have hnext : route.factory.next = .ok (.command c) :=
        hprobe ▸ hoffers.build_eq route (List.mem_of_getElem? hfirst.1) _
      have haccepts : c.accepts line = true := by
        have hsettles : route.probe.settles line = true := hfirst.2.1
        rw [hprobe] at hsettles
        exact hsettles
      rw [hprobe] at hfind
      refine ⟨{ site.router with routes := site.router.routes.set i (asked route) }, ?_, rfl,
        hoffers.set_asked hfirst.1⟩
      rw [run_dispatch_of_isFirst hfirst (by rw [hprobe, ← haccepts]; rfl) hnext haccepts,
        response, hfind]
  · have hroutes : site.router.routes.find? (·.probe.settles line) = none :=
      List.find?_eq_none.2 fun route hroute => by simp [hnone route hroute]
    rw [hroutes, Option.map_none] at hfind
    refine ⟨site.router, ?_, rfl, hoffers⟩
    rw [run_dispatch_of_none hnone, response, hfind]
    simp only [List.append_nil]

end Router

/-! ## Shells -/

namespace Shell

open Router (Offers response)

/-- `later` is `shell` after the items `shown` and the events `events`; it offers the same products.
-/
structure Later (products : List Product) (shown : List Shown) (events : List Event)
    (shell later : Shell) : Prop where
  registry_eq : later.site.router.registry = shell.site.router.registry
  offers : later.site.router.Offers products
  console_eq : later.console = shell.console
  shown_eq : later.shown = shell.shown ++ shown
  -- the events come behind the earlier ones, and the host is the same otherwise
  host_eq : later.site.host = { shell.site.host with events := shell.site.host.events ++ events }

variable {products : List Product} {shell middle later : Shell} {line : String}

theorem Later.append {shown others : List Shown} {events rest : List Event}
    (hfirst : Later products shown events shell middle)
    (hsecond : Later products others rest middle later) :
    Later products (shown ++ others) (events ++ rest) shell later := by
  refine ⟨hsecond.registry_eq.trans hfirst.registry_eq, hsecond.offers,
    hsecond.console_eq.trans hfirst.console_eq, ?_, ?_⟩
  · rw [hsecond.shown_eq, hfirst.shown_eq, List.append_assoc]
  · rw [hsecond.host_eq, hfirst.host_eq]
    simp only [List.append_assoc]

theorem Later.shown {shown : List Shown} {events : List Event}
    (hlater : Later products shown events shell later) (item : Shown) :
    Later products (shown ++ [item]) events shell { later with shown := later.shown ++ [item] } :=
  ⟨hlater.registry_eq, hlater.offers, hlater.console_eq,
    by rw [hlater.shown_eq, List.append_assoc], hlater.host_eq⟩

theorem Later.refl (hoffers : shell.site.router.Offers products) :
    Later products [] [] shell shell :=
  ⟨rfl, hoffers, rfl, (List.append_nil _).symm, by rw [List.append_nil]⟩

/-- What `answer` makes of the outcome of a line: how it ends, and the items it shows. A value that
the console cannot read ends it. -/
def report (console : Console) : Except Failure Value → Except Failure ExitCode × List Shown
  | .ok value =>
    match console.faultOf (.ofValue value) with
    | none => (.ok .success, [.ofValue value])
    | some detail => (.error (.markup detail), [])
  | .error failure =>
    if failure.isForUser then (.ok .failure, [.ofFailure failure]) else (.error failure, [])

/-- `answer` comes to `report` of `response`, whatever has been handled before. -/
theorem run_answer (hoffers : shell.site.router.Offers products) (line : String) :
    ∃ later, (answer line).run.run shell =
        ((report shell.console (response products line).1).1, later) ∧
      Later products (report shell.console (response products line).1).2
        (response products line).2 shell later := by
  obtain ⟨router, hdispatch, hregistry, hrouter⟩ := hoffers.run_dispatch line
  have hattempt := Shelled.run_attempt (Router.dispatch line) shell
  rw [hdispatch] at hattempt
  simp only [answer, run_run_bind, hattempt]
  -- the line has been handled, and its outcome is to be shown
  generalize hmiddle : ({ shell with site := ⟨router, { shell.site.host with
    events := shell.site.host.events ++ (response products line).2 }⟩ } : Shell) = middle
  have hhandled : Later products [] (response products line).2 shell middle :=
    hmiddle ▸ ⟨hregistry, hrouter, rfl, (List.append_nil _).symm, rfl⟩
  rw [← hhandled.console_eq]
  cases hresult : (response products line).1 with
  | ok value =>
    simp only [report]
    cases hfault : middle.console.faultOf (.ofValue value) with
    | none =>
      simp only [run_run_bind, Shelled.run_emit hfault, run_run_pure]
      exact ⟨_, rfl, hhandled.shown _⟩
    | some detail =>
      simp only [run_run_bind, Shelled.run_emit_of_fault hfault]
      exact ⟨_, rfl, hhandled⟩
  | error failure =>
    simp only [report]
    split
    · exact ⟨_, rfl, hhandled.shown _⟩
    · exact ⟨_, rfl, hhandled⟩

end Shell

end ChatCommands
