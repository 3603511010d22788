import ChatCommands.Proofs.OpeningRouters

/-!
# What a failed registration leaves

A router adds the route of a command before it publishes the command. So a registration that fails
once an instance has been built leaves its route behind, unpublished (`Registers.of_error`): over a
registry that has been closed, and over one that is open and whose database refuses a statement.
Only over a registry in memory, or over none, are commands taken up whole or not at all, and there
too something that is no command is left behind.

What has been taken up without fail is published, and stays so until the registry is closed; so the
names of a router that are not published are those that failed registrations have left behind. The
main statement is `failed_register_alike_iff_unbuilt`.
-/

namespace ChatCommands

/-! ## Publishing -/

namespace Content

theorem isPlace_of_set {c : Content} {key : String} {hash : Hash} (h : (c.set key hash).IsPlace) :
    c.IsPlace := by
  cases c with
  | memory m => trivial
  | table t => trivial
  | nowhere => exact h

end Content

namespace Host

theorem content?_congr {g h : Host} (hfiles : g.files = h.files) (hstores : g.stores = h.stores)
    (id : StoreId) : g.content? id = h.content? id := by
  cases g
  cases h
  cases hfiles
  cases hstores
  rfl

theorem content?_withRefusals (h : Host) (refusals : Refusals) (id : StoreId) :
    ({ h with refusals } : Host).content? id = h.content? id := content?_congr rfl rfl id

end Host

namespace Registry

variable {r : Registry} {h : Host} {c : Content}

theorem get?_set_ne_none (hplace : c.IsPlace) (entry : Entry)
    (hnone : c.get? (r.key entry.name) = none) {name : String}
    (hname : name = entry.name ∨ c.get? (r.key name) ≠ none) :
    (c.set (r.key entry.name) entry.toHash).get? (r.key name) ≠ none := by
  by_cases hsame : name = entry.name
  · have hentry := entryIn_set_self hplace entry fun checked hold => by
      rw [entryIn_eq_none_iff.2 hnone] at hold
      cases hold
    rw [hsame, ne_eq, ← entryIn_eq_none_iff, hentry]
    exact Option.some_ne_none _
  · rw [Content.get?_set_of_ne fun hkey => hsame (key_injective hkey).symm]
    exact hname.resolve_left hsame

/-- Something is under the key of `name`, if the store of the registry is open. -/
def IsTaken (r : Registry) (h : Host) (name : String) : Prop :=
  ∀ c, h.content? r.store = some c → c.IsPlace → c.get? (r.key name) ≠ none

theorem Publishes.isTaken {p : Product} {later : Host} (hends : r.Publishes h p (.ok (), later))
    {name : String} (hname : p.name = .ok name ∨ r.IsTaken h name) : r.IsTaken later name := by
  cases hends with
  | @found _ other c hash hother _ hopen hget =>
    intro d (hd : h.content? r.store = some d) hplace
    obtain rfl := Option.some.inj (hopen.symm.trans hd)
    rcases hname with hname | hbefore
    · obtain rfl := Except.ok.inj (hother.symm.trans hname)
      exact hget ▸ Option.some_ne_none hash
    · exact hbefore c hopen hplace
  | @written command c after _ hopen hget hwritten =>
    intro d (hd : after.content? r.store = some d) hplace
    rw [hwritten.self, hopen, Option.map_some] at hd
    obtain rfl := Option.some.inj hd
    have hplace := Content.isPlace_of_set hplace
    refine get?_set_ne_none hplace ⟨command.name, command.help⟩ hget ?_
    exact hname.imp (fun hname => (Except.ok.inj hname).symm) fun hbefore => hbefore c hopen hplace

theorem Publishes.owns {p : Product} {result : Except Failure Unit} {later : Host}
    (hends : r.Publishes h p (result, later)) (howns : r.Owns h) : r.Owns later := by
  cases hends with
  | unread => exact howns
  | unwritten => exact howns
  | unnamed => exact howns
  | unwritable => exact howns
  | found => exact howns
  | @written command c after _ hopen hget hwritten =>
    have hafter : r.Owns after :=
      @owns_of_written _ _ _ howns hopen ⟨command.name, command.help⟩ hget _ hwritten
    exact hafter

end Registry

namespace Hosted

theorem content?_close {id : StoreId} {h : Host}
    (hmemory : ∀ m, h.content? id ≠ some (.memory m)) :
    ((close id).run.run h).2.content? id = none := by
  simp only [close, run_run_bind, run_run_get]
  rcases hstore : h.stores[id]? with _ | m | ⟨database, isOpen⟩
  · have hnone : h.content? id = none := by rw [Host.content?, hstore]; rfl
    exact hnone
  · have hsome : h.content? id = some (.memory m) := by rw [Host.content?, hstore]; rfl
    exact absurd hsome (hmemory m)
  · have hclosed : h.contentOf (.connection database false) = none := by
      rcases database with (_ | ⟨name, names⟩) | t <;> rfl
    exact (Host.content?_withStore hstore _).trans hclosed

theorem content?_close_of_memory {id : StoreId} {h : Host} {m : Memory}
    (hmemory : h.content? id = some (.memory m)) :
    ((close id).run.run h).2.content? id = some (.memory Memory.empty) := by
  obtain ⟨store, hstore, hcontent⟩ := Option.bind_eq_some_iff.1 hmemory
  rcases store with m' | ⟨(_ | ⟨name, names⟩) | t, _ | _⟩
  · simp only [close, run_run_bind, run_run_get, hstore]
    exact Host.content?_withStore hstore _
  -- a connection is to no hashes in memory
  all_goals cases hcontent

end Hosted

/-- The name of a product that takes the line; `none` if it does not. -/
def Product.nameFor (p : Product) (line : String) : Except Failure (Option String) := do
  if ← p.accepts line then return some (← p.name) else return none

/-- Whatever the factory builds is a command. -/
def Factory.MakesCommands (f : Factory) : Prop :=
  ∀ n p, f.build n = .ok p → ∃ c, p = .command c

namespace Router

/-! ## Routers with one more command -/

theorem names_withRoute (r : Router) (probe : Product) (factory : Factory) :
    (r.withRoute probe factory).names = do return (← r.names) ++ [← probe.name] := by
  rw [names, withRoute, List.mapM_append, names]
  cases r.routes.mapM (·.probe.name) with
  | error failure => rfl
  | ok names => cases hname : probe.name <;> simp [hname]

/-- A new route is asked last. -/
theorem route_withRoute (r : Router) (probe : Product) (factory : Factory) (line : String) :
    (r.withRoute probe factory).route line =
      match r.route line with
      | .ok none => probe.nameFor line
      | other => other := by
  rw [route, withRoute, List.find?_append, route]
  cases r.routes.find? (·.probe.settles line) with
  | some route =>
    simp only [Option.some_or]
    cases route.probe.accepts line with
    | error failure => rfl
    | ok takes => cases hname : route.probe.name <;> rfl
  | none =>
    simp only [Option.none_or, List.find?_cons, List.find?_nil, Product.settles, Product.nameFor]
    rcases haccepts : probe.accepts line with failure | _ | _
    · simp only [haccepts]
      rfl
    · rfl
    · simp only [haccepts]
      rfl

/-- Routers with the same names, which route every line alike. -/
def Alike (r s : Router) : Prop := r.names = s.names ∧ ∀ line, r.route line = s.route line

theorem exists_nameless_of_names {r : Router} {failure : Failure}
    (hnames : r.names = .error failure) :
    ∃ route ∈ r.routes, route.probe.name = .error failure := by
  obtain ⟨registry, routes⟩ := r
  change routes.mapM (·.probe.name) = .error failure at hnames
  induction routes with
  | nil => cases hnames
  | cons route routes ih =>
    rw [List.mapM_cons] at hnames
    cases hname : route.probe.name with
    | error other =>
      rw [hname] at hnames
      cases hnames
      exact ⟨route, List.mem_cons_self, hname⟩
    | ok name =>
      rw [hname] at hnames
      cases hlater : routes.mapM (·.probe.name) with
      | ok names =>
        simp only [hlater] at hnames
        cases hnames
      | error other =>
        simp only [hlater] at hnames
        cases hnames
        obtain ⟨route, hroute, hfails⟩ := ih hlater
        exact ⟨route, List.mem_cons_of_mem _ hroute, hfails⟩

theorem settles_of_name_eq_error {p : Product} {failure : Failure} (hname : p.name = .error failure)
    (line : String) : p.settles line = true := by
  rcases p with c | ⟨className, _ | name⟩
  · cases hname
  · rfl
  · cases hname

/-- One more route makes no difference exactly if some product in front of it has no name. -/
theorem alike_withRoute_iff (r : Router) (probe : Product) (factory : Factory) :
    Alike (r.withRoute probe factory) r ↔ ∃ failure, r.names = .error failure := by
  constructor
  · rintro ⟨hnames, -⟩
    rw [names_withRoute] at hnames
    cases hr : r.names with
    | error failure => exact ⟨failure, rfl⟩
    | ok names =>
      rw [hr] at hnames
      cases hname : probe.name with
      | error failure => rw [hname] at hnames; cases hnames
      | ok name =>
        rw [hname] at hnames
        have hsame : names ++ [name] = names := Except.ok.inj hnames
        simp at hsame
  · rintro ⟨failure, hfails⟩
    refine ⟨by rw [names_withRoute, hfails]; rfl, fun line => ?_⟩
    obtain ⟨route, hroute, hname⟩ := exists_nameless_of_names hfails
    have hsome : (r.routes.find? (·.probe.settles line)).isSome :=
      List.find?_isSome.2 ⟨route, hroute, settles_of_name_eq_error hname line⟩
    obtain ⟨first, hfirst⟩ := Option.isSome_iff_exists.1 hsome
    rw [Router.route, withRoute, List.find?_append, hfirst, Option.some_or, Router.route, hfirst]

/-! ## Handling lines -/

/-- What a router and its host hold, without the factories and the events. -/
def outline (site : Site) : Option Registry × List Product × FileTree × List Store :=
  (site.router.registry, site.router.routes.map Route.probe, site.host.files, site.host.stores)

theorem keeps_executeOn_stores (c : Command) (line : String) :
    Keeps (fun h : Host => (h.files, h.stores)) (executeOn c line) := by
  intro h
  simp only [executeOn, run_run_bind, run_run_get]
  rcases (c.execute line).run.run ⟨∅, h.events⟩ with ⟨failure | value, frame⟩ <;> rfl

theorem probes_of_request {line : String} {routes later : List Route}
    {outcome : Except Failure Product} (h : request line routes = some (outcome, later)) :
    later.map Route.probe = routes.map Route.probe := by
  induction routes generalizing later with
  | nil => cases h
  | cons route routes ih =>
    rw [request] at h
    rcases haccepts : route.probe.accepts line with failure | _ | _
    · rw [haccepts] at h
      cases h
      rfl
    · simp only [haccepts] at h
      obtain ⟨⟨other, rest⟩, hrest, heq⟩ := Option.map_eq_some_iff.1 h
      cases heq
      rw [List.map_cons, List.map_cons, ih hrest]
    · rw [haccepts] at h
      cases h
      rfl

/-- `dispatch` changes nothing but the factories and the events. -/
theorem keeps_dispatch_outline (line : String) : Keeps outline (dispatch line) := by
  intro site
  simp only [dispatch, run_run_bind, run_run_get]
  cases hrequest : request line site.router.routes with
  | none => rfl
  | some answer =>
    obtain ⟨outcome, routes⟩ := answer
    have hprobes := probes_of_request hrequest
    have hexecuted : Keeps outline
        (Routed.lift (outcome >>= Product.toCommand) >>= fun c =>
          Routed.onHost (executeOn c line)) :=
      keeps_bind (Routed.keeps_lift _) fun c later =>
        congrArg
          (fun stores => (later.router.registry, later.router.routes.map Route.probe, stores))
          (keeps_executeOn_stores c line later.host)
    exact (hexecuted _).trans (congrArg (fun probes => (_, probes, _)) hprobes)

/-! ## Uses of a router -/

/-- Something that is done with a router, or around it. -/
inductive Use where
  | register (factory : Factory)
  | dispatch (line : String)
  | close
  -- the databases refuse other statements from now on
  | meanwhile (refusals : Refusals)

/-- The site after a use, whether it fails or not. -/
def Use.after (site : Site) : Use → Site
  | register factory => ((Router.register factory).run.run site).2
  | dispatch line => ((Router.dispatch line).run.run site).2
  | close => (Router.close.run.run site).2
  | meanwhile refusals => { site with host := { site.host with refusals } }

/-- A new router after some uses. -/
def used (registry : Option Registry) (h : Host) (uses : List Use) : Site :=
  uses.foldl Use.after ⟨empty registry, h⟩

theorem used_append (registry : Option Registry) (h : Host) (uses : List Use) (use : Use) :
    used registry h (uses ++ [use]) = use.after (used registry h uses) := by
  rw [used, List.foldl_append]
  rfl

section
variable {site later : Site} {r : Registry} {line : String} {factory : Factory}
  {result : Except Failure Product}

theorem run_close_of_registry (hregistry : site.router.registry = some r) :
    close.run.run site = (.ok (), { site with host := (r.close.run.run site.host).2 }) := by
  obtain ⟨later, hrun, -⟩ := Hosted.exists_run_close r.store site.host
  have hclose : r.close.run.run site.host = (.ok (), later) := hrun
  simp only [close, run_run_bind, run_run_get, hregistry, run_onHost, hclose]

theorem run_close_of_none (hregistry : site.router.registry = none) :
    close.run.run site = (.ok (), site) := by
  simp only [close, run_run_bind, run_run_get, hregistry]
  rfl

/-- Uses other than `register` keep the registry and the probes. -/
theorem router_after (site : Site) {use : Use} (huse : ∀ factory, use ≠ .register factory) :
    (use.after site).router.registry = site.router.registry ∧
      (use.after site).router.routes.map Route.probe = site.router.routes.map Route.probe := by
  cases use with
  | register factory => exact absurd rfl (huse factory)
  | dispatch line =>
    obtain ⟨hregistry, hrest⟩ := Prod.mk.inj (keeps_dispatch_outline line site)
    exact ⟨hregistry, (Prod.mk.inj hrest).1⟩
  | close =>
    cases hregistry : site.router.registry with
    | none => rw [Use.after, run_close_of_none hregistry]; exact ⟨hregistry, rfl⟩
    | some r => rw [Use.after, run_close_of_registry hregistry]; exact ⟨hregistry, rfl⟩
  | meanwhile refusals => exact ⟨rfl, rfl⟩

theorem registry_after (site : Site) (use : Use) :
    (use.after site).router.registry = site.router.registry := by
  cases use with
  | register factory => exact (registers_register site factory).registry_eq
  | dispatch line => exact (router_after site (by rintro _ ⟨⟩)).1
  | close => exact (router_after site (by rintro _ ⟨⟩)).1
  | meanwhile refusals => rfl

theorem registry_used (registry : Option Registry) (h : Host) (uses : List Use) :
    (used registry h uses).router.registry = registry := by
  induction uses using List.reverseRecOn with
  | nil => rfl
  | append_singleton uses use ih => rw [used_append, registry_after, ih]

theorem content?_dispatch (site : Site) (line : String) (id : StoreId) :
    (Use.after site (.dispatch line)).host.content? id = site.host.content? id := by
  obtain ⟨-, hview⟩ := Prod.mk.inj (keeps_dispatch_outline line site)
  obtain ⟨-, hview⟩ := Prod.mk.inj hview
  obtain ⟨hfiles, hstores⟩ := Prod.mk.inj hview
  exact Host.content?_congr hfiles hstores id

/-! ### What is published stays so -/

theorem Registers.isTaken (h : Registers site factory result later)
    (hregistry : site.router.registry = some r) {name : String}
    (hname : (∃ probe, result = .ok probe ∧ probe.name = .ok name) ∨ r.IsTaken site.host name) :
    r.IsTaken later.host name := by
  cases h with
  | unbuilt => exact hname.resolve_left (by rintro ⟨_, ⟨⟩, -⟩)
  | unpublished => exact hname.resolve_left (by rintro ⟨_, ⟨⟩, -⟩)
  | nameless _ hnone => cases hregistry.symm.trans hnone
  | unlisted _ hnone => cases hregistry.symm.trans hnone
  | @listed probe _ _ after _ hsame _ hends =>
    obtain rfl := Option.some.inj (hregistry.symm.trans hsame)
    have hafter : r.IsTaken after name := hends.isTaken <| hname.imp_left fun ⟨_, hok, hname⟩ => by
      obtain rfl := Except.ok.inj hok
      exact hname
    exact hafter

theorem isTaken_after (hregistry : site.router.registry = some r) {name : String}
    (htaken : r.IsTaken site.host name) {use : Use} (huse : use ≠ .close) :
    r.IsTaken (use.after site).host name := by
  cases use with
  | register factory => exact (registers_register site factory).isTaken hregistry (.inr htaken)
  | dispatch line =>
    intro c hopen
    rw [content?_dispatch] at hopen
    exact htaken c hopen
  | close => exact absurd rfl huse
  | meanwhile refusals =>
    intro c hopen
    exact htaken c ((site.host.content?_withRefusals refusals r.store).symm.trans hopen)

/-! ### Entries of its own -/

theorem Registers.owns (h : Registers site factory result later)
    (hregistry : site.router.registry = some r) (howns : r.Owns site.host) : r.Owns later.host := by
  cases h with
  | unbuilt => exact howns
  | unpublished => exact howns
  | nameless => exact howns
  | unlisted => exact howns
  | @listed _ _ _ after _ hsame _ hends =>
    obtain rfl := Option.some.inj (hregistry.symm.trans hsame)
    have hafter : r.Owns after := hends.owns howns
    exact hafter

/-- A router that does not close its registry keeps `Owns`. -/
theorem owns_used {r : Registry} {h : Host} (howns : r.Owns h) {uses : List Use}
    (huses : .close ∉ uses) : r.Owns (used (some r) h uses).host := by
  induction uses using List.reverseRecOn with
  | nil => exact howns
  | append_singleton uses use ih =>
    rw [List.mem_append, List.mem_singleton, not_or] at huses
    rw [used_append]
    cases use with
    | register factory => exact (registers_register _ factory).owns (registry_used ..) (ih huses.1)
    | dispatch line =>
      intro c hopen
      rw [content?_dispatch] at hopen
      exact ih huses.1 c hopen
    | close => exact absurd rfl huses.2
    | meanwhile refusals =>
      intro c hopen
      exact ih huses.1 c ((Host.content?_withRefusals _ refusals r.store).symm.trans hopen)

/-! ### Registries in memory -/

theorem inMemory_used {r : Registry} {h : Host} (hmemory : r.InMemory h) (uses : List Use) :
    r.InMemory (used (some r) h uses).host := by
  induction uses using List.reverseRecOn with
  | nil => exact hmemory
  | append_singleton uses use ih =>
    have hregistry := registry_used (some r) h uses
    rw [used_append]
    obtain ⟨m, hcontent⟩ := id ih
    cases use with
    | register factory => exact (registers_register _ factory).inMemory hregistry ih
    | dispatch line => exact ⟨m, (content?_dispatch _ line r.store).trans hcontent⟩
    | close =>
      refine ⟨Memory.empty, ?_⟩
      rw [Use.after, run_close_of_registry hregistry]
      exact Hosted.content?_close_of_memory hcontent
    | meanwhile refusals =>
      exact ⟨m, (Host.content?_withRefusals _ refusals r.store).trans hcontent⟩

end

/-! ## All or nothing -/

/-- A failed registration leaves a router that is `Alike` exactly if no instance was built, or a
product without a name was there before. -/
theorem Registers.alike_iff {site later : Site} {factory : Factory} {failure : Failure}
    (h : Registers site factory (.error failure) later) :
    Alike later.router site.router ↔
      factory.next = .error failure ∨ ∃ other, site.router.names = .error other := by
  rcases h.of_error with ⟨hnext, rfl⟩ | ⟨probe, hnext, rfl⟩
  · exact iff_of_true ⟨rfl, fun _ => rfl⟩ (.inl hnext)
  · rw [alike_withRoute_iff, hnext]
    exact (or_iff_right nofun).symm

/-- A failed registration of a factory that is `lawful` leaves a router that is `Alike`, whatever
has been done before. -/
def AllOrNothing (lawful : Factory → Prop) (registry : Option Registry) (h : Host) : Prop :=
  ∀ uses factory failure, lawful factory →
    ((register factory).run.run (used registry h uses)).1 = .error failure →
      Alike ((register factory).run.run (used registry h uses)).2.router
        (used registry h uses).router

/-- Over a registry with a database it fails for a router that is closed, as the store denies
everything then. -/
theorem inMemory_of_allOrNothing {r : Registry} {h : Host}
    (hlaw : AllOrNothing Factory.MakesCommands (some r) h) : r.InMemory h := by
  by_contra hmemory
  have hclosed : (used (some r) h [.close]).host.content? r.store = none := by
    rw [used, List.foldl_cons, List.foldl_nil, Use.after, run_close_of_registry rfl]
    exact Hosted.content?_close fun m hcontent => hmemory ⟨m, hcontent⟩
  have hmakes : (Factory.constant (.ok (.command Echo.command))).MakesCommands := by
    rintro n p ⟨⟩
    exact ⟨Echo.command, rfl⟩
  have hends :=
    registers_register (used (some r) h [.close]) (.constant (.ok (.command Echo.command)))
  have halike := fun failure =>
    hlaw [.close] (.constant (.ok (.command Echo.command))) failure hmakes
  generalize (register (.constant (.ok (.command Echo.command)))).run.run
    (used (some r) h [.close]) = ended at hends halike
  obtain ⟨failure | probe, later⟩ := ended
  · rcases hends.alike_iff.1 (halike failure rfl) with hnext | ⟨other, hother⟩
    · cases hnext
    · cases hother
  · cases hends with
    | unlisted _ hnone => cases (registry_used (some r) h [.close]).symm.trans hnone
    | listed hnext hsame _ hpublishes =>
      obtain rfl := Option.some.inj ((registry_used (some r) h [.close]).symm.trans hsame)
      cases hpublishes with
      | found _ _ hopen _ => cases hclosed.symm.trans hopen
      | written _ hopen => cases hclosed.symm.trans hopen

theorem allOrNothing_of_inMemory {registry : Option Registry} {h : Host}
    (hmemory : ∀ r, registry = some r → r.InMemory h) :
    AllOrNothing Factory.MakesCommands registry h := by
  intro uses factory failure hmakes hfails
  have hends := registers_register (used registry h uses) factory
  generalize ((register factory).run.run (used registry h uses)).2 = later at hends ⊢
  rw [hfails] at hends
  rw [hends.alike_iff]
  cases hnext : factory.next with
  | error other =>
    rcases hends.of_error with ⟨hfails, -⟩ | ⟨probe, hbuilt, -⟩
    · exact .inl (hnext.symm.trans hfails)
    · cases hnext.symm.trans hbuilt
  | ok probe =>
    -- what is made is a command, and memory takes every command
    obtain ⟨c, rfl⟩ := hmakes _ _ hnext
    cases hends.eq_ok_of_command hnext fun r hregistry => by
      rw [registry_used] at hregistry
      subst hregistry
      exact inMemory_used (hmemory r rfl) uses

/-- For factories of commands this holds exactly over a registry in memory, or over none. -/
theorem allOrNothing_iff (registry : Option Registry) (h : Host) :
    AllOrNothing Factory.MakesCommands registry h ↔
      ∀ r, registry = some r → r.InMemory h := by
  refine ⟨?_, allOrNothing_of_inMemory⟩
  rintro hlaw r rfl
  exact inMemory_of_allOrNothing hlaw

/-- For any factories it does not hold, as one may make an object without a name. -/
theorem not_allOrNothing (registry : Option Registry) (h : Host) :
    ¬AllOrNothing (fun _ => True) registry h := by
  intro hlaw
  have hends := registers_register (used registry h []) (.constant (.ok (.object "NoneType" none)))
  have halike := fun failure =>
    hlaw [] (.constant (.ok (.object "NoneType" none))) failure trivial
  generalize (register (.constant (.ok (.object "NoneType" none)))).run.run (used registry h []) =
    ended at hends halike
  obtain ⟨failure | probe, later⟩ := ended
  · rcases hends.alike_iff.1 (halike failure rfl) with hnext | ⟨other, hother⟩
    · cases hnext
    · cases hother
  · obtain ⟨hnext, -, name, hname⟩ := hends.of_ok
    cases hnext
    cases hname

/-! ## What is published -/

/-- A registration among `uses` has failed although an instance named `name` was built. -/
def LeftBehind (registry : Option Registry) (h : Host) (uses : List Use) (name : String) : Prop :=
  ∃ past factory later probe failure, uses = past ++ .register factory :: later ∧
    factory.next = .ok probe ∧ probe.name = .ok name ∧
    ((register factory).run.run (used registry h past)).1 = .error failure

theorem LeftBehind.append {registry : Option Registry} {h : Host} {uses : List Use} {name : String}
    (hleft : LeftBehind registry h uses name) (use : Use) :
    LeftBehind registry h (uses ++ [use]) name := by
  obtain ⟨past, factory, later, probe, failure, rfl, hnext⟩ := hleft
  exact ⟨past, factory, later ++ [use], probe, failure, by simp, hnext⟩

section
variable {r : Registry} {h : Host} {uses : List Use} {name : String}

theorem isTaken_used_of_registered {past later : List Use} {factory : Factory} {probe : Product}
    (hrun : ((register factory).run.run (used (some r) h past)).1 = .ok probe)
    (hname : probe.name = .ok name) (hlater : .close ∉ later) :
    r.IsTaken (used (some r) h (past ++ .register factory :: later)).host name := by
  induction later using List.reverseRecOn with
  | nil =>
    rw [used_append]
    exact (registers_register _ factory).isTaken (registry_used ..) (.inl ⟨probe, hrun, hname⟩)
  | append_singleton later use ih =>
    rw [List.mem_append, List.mem_singleton, not_or] at hlater
    rw [← List.cons_append, ← List.append_assoc, used_append]
    exact isTaken_after (registry_used ..) (ih hlater.1) (Ne.symm hlater.2)

/-- The name of every route is taken, or of a command that was left behind. -/
theorem isTaken_or_leftBehind (huses : .close ∉ uses) {p : Product}
    (hp : p ∈ (used (some r) h uses).router.routes.map Route.probe) (hname : p.name = .ok name) :
    r.IsTaken (used (some r) h uses).host name ∨ LeftBehind (some r) h uses name := by
  induction uses using List.reverseRecOn with
  | nil => cases hp
  | append_singleton uses use ih =>
    rw [List.mem_append, List.mem_singleton, not_or] at huses
    have hbefore (hp : p ∈ (used (some r) h uses).router.routes.map Route.probe) :
        r.IsTaken (used (some r) h (uses ++ [use])).host name ∨
          LeftBehind (some r) h (uses ++ [use]) name := by
      rcases ih huses.1 hp with htaken | hleft
      · rw [used_append]
        exact .inl (isTaken_after (registry_used ..) htaken (Ne.symm huses.2))
      · exact .inr (hleft.append use)
    rw [used_append] at hp
    cases use with
    | dispatch line =>
      have hsame := @router_after (used (some r) h uses) (.dispatch line) (by rintro _ ⟨⟩)
      exact hbefore (hsame.2 ▸ hp)
    | close => exact absurd rfl huses.2
    | meanwhile refusals => exact hbefore hp
    | register factory =>
      have hends := registers_register (used (some r) h uses) factory
      have hnew {probe : Product} (hrouter : (Use.after (used (some r) h uses)
            (.register factory)).router = (used (some r) h uses).router.withRoute probe factory) :
          p ∈ (used (some r) h uses).router.routes.map Route.probe ∨ p = probe := by
        rw [hrouter, withRoute, List.map_append, List.mem_append] at hp
        exact hp.imp_right List.mem_singleton.1
      cases hresult : ((register factory).run.run (used (some r) h uses)).1 with
      | ok probe =>
        rw [hresult] at hends
        obtain ⟨hnext, hrouter, -⟩ := hends.of_ok
        rcases hnew hrouter with hold | rfl
        · exact hbefore hold
        · exact .inl (@isTaken_used_of_registered _ _ _ uses [] _ _ hresult hname List.not_mem_nil)
      | error failure =>
        rw [hresult] at hends
        rcases hends.of_error with ⟨-, hsame⟩ | ⟨probe, hnext, hlater⟩
        · exact hbefore (congrArg (fun site => site.router.routes.map Route.probe) hsame ▸ hp)
        · rcases hnew (congrArg Site.router hlater) with hold | rfl
          · exact hbefore hold
          · exact .inr ⟨uses, factory, [], p, failure, rfl, hnext, hname, hresult⟩

def IsOpen (r : Registry) (h : Host) : Prop := ∃ c, h.content? r.store = some c ∧ c.IsPlace

/-- `isPublished` finds what is taken, unless the look is denied. -/
theorem run_isPublished_of_isTaken (htaken : r.IsTaken h name) (hopen : IsOpen r h) :
    (r.isPublished name).run.run h = (.ok true, h) ∨
      Registry.IsDenied r h ((r.isPublished name).run.run h).1 := by
  obtain ⟨c, hcontent, hplace⟩ := hopen
  cases hserved : h.denied? r.store (.read (r.key name)) with
  | some failure =>
    exact .inr ⟨_, failure, hserved, by rw [Registry.run_isPublished_of_denied hserved]⟩
  | none =>
    refine .inl ?_
    rw [Registry.run_isPublished hcontent hserved,
      Option.isSome_iff_ne_none.2 (htaken c hcontent hplace)]

theorem run_get_of_isTaken (htaken : r.IsTaken h name) (howns : r.Owns h) (hopen : IsOpen r h) :
    (∃ entry : Entry, entry.name = name ∧ (r.get name).run.run h = (.ok (some entry), h)) ∨
      Registry.IsDenied r h ((r.get name).run.run h).1 := by
  obtain ⟨c, hcontent, hplace⟩ := hopen
  cases hserved : h.denied? r.store (.read (r.key name)) with
  | some failure => exact .inr ⟨_, failure, hserved, by rw [Registry.run_get_of_denied hserved]⟩
  | none =>
    obtain ⟨hash, hhash⟩ := Option.ne_none_iff_exists'.1 (htaken c hcontent hplace)
    obtain ⟨entry, hkey, hentry⟩ := howns c hcontent _ hash (r.hasStart_key name) hhash
    exact .inl ⟨entry, (Registry.key_injective hkey).symm,
      Registry.run_get hcontent hserved hhash hentry⟩

end

/-- What becomes of the commands that a router takes up. -/
structure Registrations (registry : Option Registry) (h : Host) : Prop where
  ends : ∀ uses factory, Registers (used registry h uses) factory
    ((register factory).run.run (used registry h uses)).1
    ((register factory).run.run (used registry h uses)).2
  -- a failed `register` leaves names and routes as they were if nothing was built, and otherwise
  -- exactly if some product without a name is in the way, so that there are no names anyhow
  alike_iff : ∀ uses factory failure,
    ((register factory).run.run (used registry h uses)).1 = .error failure →
      (Alike ((register factory).run.run (used registry h uses)).2.router
        (used registry h uses).router ↔
          factory.next = .error failure ∨
            ∃ other, (used registry h uses).router.names = .error other)
  -- what is built and not published is the last of the names, and the last to be asked about a line
  leftBehind : ∀ uses factory probe failure, factory.next = .ok probe →
    ((register factory).run.run (used registry h uses)).1 = .error failure →
      ((register factory).run.run (used registry h uses)).2.host = (used registry h uses).host ∧
        (((register factory).run.run (used registry h uses)).2.router.names =
          do return (← (used registry h uses).router.names) ++ [← probe.name]) ∧
        ∀ line, ((register factory).run.run (used registry h uses)).2.router.route line =
          match (used registry h uses).router.route line with
          | .ok none => probe.nameFor line
          | other => other
  -- for factories of commands `register` is all or nothing exactly without a registry, or over one
  -- in memory
  allOrNothing_iff : AllOrNothing Factory.MakesCommands registry h ↔
    ∀ r, registry = some r → r.InMemory h
  not_allOrNothing : ¬AllOrNothing (fun _ => True) registry h
  -- what `register` has taken up is published from then on, until the registry is closed
  published : ∀ r past factory later probe name, registry = some r →
    ((register factory).run.run (used registry h past)).1 = .ok probe → probe.name = .ok name →
      .close ∉ later → r.IsTaken (used registry h (past ++ .register factory :: later)).host name
  -- a name of the router that is not published has been left behind by a failed `register`
  published_or_leftBehind : ∀ r uses names name, registry = some r →
    (used registry h uses).router.names = .ok names → name ∈ names → .close ∉ uses →
      r.IsTaken (used registry h uses).host name ∨ LeftBehind registry h uses name
  -- `isPublished` finds what is published while the registry is open, unless the look is denied
  isPublished : ∀ r uses name, registry = some r → IsOpen r (used registry h uses).host →
    r.IsTaken (used registry h uses).host name →
      (r.isPublished name).run.run (used registry h uses).host =
          (.ok true, (used registry h uses).host) ∨
        r.IsDenied (used registry h uses).host
          ((r.isPublished name).run.run (used registry h uses).host).1
  -- `get` finds an entry of the name, if the registry held nothing else at first
  get : ∀ r uses name, registry = some r → r.Owns h → .close ∉ uses →
    IsOpen r (used registry h uses).host → r.IsTaken (used registry h uses).host name →
      (∃ entry : Entry, entry.name = name ∧ (r.get name).run.run (used registry h uses).host =
          (.ok (some entry), (used registry h uses).host)) ∨
        r.IsDenied (used registry h uses).host
          ((r.get name).run.run (used registry h uses).host).1

theorem mem_probes_of_mem_names {r : Router} {names : List String} {name : String}
    (hnames : r.names = .ok names) (hmem : name ∈ names) :
    ∃ p ∈ r.routes.map Route.probe, p.name = .ok name := by
  obtain ⟨registry, routes⟩ := r
  change routes.mapM (·.probe.name) = .ok names at hnames
  induction routes generalizing names with
  | nil =>
    cases hnames
    cases hmem
  | cons route routes ih =>
    rw [List.mapM_cons] at hnames
    cases hfirst : route.probe.name with
    | error failure => rw [hfirst] at hnames; cases hnames
    | ok first =>
      cases hlater : routes.mapM (·.probe.name) with
      | error failure => simp only [hfirst, hlater] at hnames; cases hnames
      | ok later =>
        simp only [hfirst, hlater] at hnames
        cases hnames
        rw [List.map_cons]
        rcases List.mem_cons.1 hmem with rfl | hmem
        · exact ⟨route.probe, List.mem_cons_self, hfirst⟩
        · obtain ⟨p, hp, hname⟩ := ih hmem hlater
          exact ⟨p, List.mem_cons_of_mem _ hp, hname⟩

/-- A failed registration leaves an `Alike` router exactly if no instance was built, apart from
routers that hold an object without a name. Otherwise it leaves a route behind; and every name that
is not left behind is published. -/
theorem failed_register_alike_iff_unbuilt (registry : Option Registry) (h : Host) :
    Registrations registry h where
  ends uses factory := registers_register (used registry h uses) factory
  alike_iff uses factory failure hfails := by
    have hends := registers_register (used registry h uses) factory
    rw [hfails] at hends
    exact hends.alike_iff
  leftBehind uses factory probe failure hnext hfails := by
    have hends := registers_register (used registry h uses) factory
    generalize ((register factory).run.run (used registry h uses)).2 = later at hends ⊢
    rw [hfails] at hends
    rcases hends.of_error with ⟨herror, -⟩ | ⟨other, hbuilt, rfl⟩
    · cases hnext.symm.trans herror
    · obtain rfl := Except.ok.inj (hnext.symm.trans hbuilt)
      exact ⟨rfl, names_withRoute _ _ _, route_withRoute _ _ _⟩
  allOrNothing_iff := allOrNothing_iff registry h
  not_allOrNothing := not_allOrNothing registry h
  published r past factory later probe name hregistry hrun hname hlater := by
    subst hregistry
    exact isTaken_used_of_registered hrun hname hlater
  published_or_leftBehind r uses names name hregistry hnames hmem huses := by
    subst hregistry
    obtain ⟨p, hp, hname⟩ := mem_probes_of_mem_names hnames hmem
    exact isTaken_or_leftBehind huses hp hname
  isPublished r uses name hregistry hopen htaken := run_isPublished_of_isTaken htaken hopen
  get r uses name hregistry howns huses hopen htaken := by
    subst hregistry
    exact run_get_of_isTaken htaken (owns_used howns huses) hopen

/-- A host with a connection to a database that refuses some statements. -/
def connected (refusals : Refusals) : Host :=
  ⟨FileTree.empty, refusals, [.connection (.own Table.empty) true], []⟩

def readOnly : Refusals
  | _, .write _ _ => some (.unable "attempt to write a readonly database")
  | _, _ => none

/-- A closed store denies everything, and a read-only database denies a write. Either way `register`
fails, and the command is named and routed to nevertheless. -/
theorem left_behind_of_denied_registry :
    (let site := used (some ⟨0, "p"⟩) (connected Refusals.none) [.close]
      let ended := (register (.constant (.ok (.command Echo.command)))).run.run site
      ended.1 = .error (.store .closed) ∧
        site.router.names = .ok [] ∧ ended.2.router.names = .ok ["echo"] ∧
        site.router.route "echo hi" = .ok none ∧
        ended.2.router.route "echo hi" = .ok (some "echo")) ∧
      let site := used (some ⟨0, "p"⟩) (connected readOnly) []
      let ended := (register (.constant (.ok (.command Echo.command)))).run.run site
      ended.1 = .error (.store (.refused (.unable "attempt to write a readonly database"))) ∧
        site.router.names = .ok [] ∧ ended.2.router.names = .ok ["echo"] ∧
        ((Registry.isPublished ⟨0, "p"⟩ "echo").run.run ended.2.host).1 = .ok false :=
  ⟨⟨rfl, rfl, rfl, rfl, rfl⟩, rfl, rfl, rfl, rfl⟩

end Router

end ChatCommands
