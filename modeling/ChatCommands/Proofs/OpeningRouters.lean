import ChatCommands.Proofs.Registering
import ChatCommands.Proofs.StoreLifetime

/-!
# Opening routers

A router is opened from settings in two steps. First the registry is opened; then the paths of the
commands are followed in order, and each command is taken up before the next path is looked at. What
fails on the way is a path, a factory, or the publishing of what a factory has made
(`failsAt_of_registerAll`). `opening_openRouter` sums up how opening a router ends and what has been
opened and closed by then.
-/

namespace ChatCommands

/-! ## Following paths -/

namespace Catalogue

/-- What the factory at the end of `path` makes. -/
def productAt (catalogue : Catalogue) (path : String) : Except Failure Product := do
  (← catalogue.resolve path).outcome

/-- `productAt` for every path; the first that fails is the outcome. -/
def productsAt (catalogue : Catalogue) (paths : List String) : Except Failure (List Product) :=
  paths.mapM catalogue.productAt

theorem productsAt_cons_of_ok {catalogue : Catalogue} {path : String} {p : Product}
    (hp : catalogue.productAt path = .ok p) (paths : List String) :
    catalogue.productsAt (path :: paths) = (catalogue.productsAt paths).map (p :: ·) := by
  rw [productsAt, List.mapM_cons, hp, productsAt]
  rfl

end Catalogue

/-! ## Taking up commands -/

/-- The registry of a router and the standing of its host. -/
def Site.ground (site : Site) : Option Registry × Standing :=
  (site.router.registry, site.host.standing)

namespace Routed

theorem keeps_onHost {α : Type} {work : Hosted α} (hwork : Keeps Host.standing work) :
    Keeps Site.ground (onHost work) := fun site =>
  congrArg (Prod.mk site.router.registry) (hwork site.host)

theorem keeps_lift {α τ : Type} {view : Site → τ} (outcome : Except Failure α) :
    Keeps view (lift outcome) := by
  cases outcome with
  | error failure => exact keeps_throw failure
  | ok a => exact keeps_pure a

end Routed

namespace Router

/-- The route that `register` adds for a factory whose products are all `p`. -/
def routeOf (p : Product) : Route := ⟨p, (Factory.constant (.ok p)).advance⟩

/-- `register` opens and closes no store, and keeps the registry. -/
theorem keeps_register (factory : Factory) : Keeps Site.ground (register factory) := by
  rw [register]
  cases factory.next with
  | error failure => exact keeps_throw failure
  | ok probe =>
    have hnoted : Keeps Site.ground (do
        let name ← Routed.lift probe.name
        Routed.onHost (Hosted.note (.routed name probe.label))
        return probe : Routed Product) :=
      keeps_bind (Routed.keeps_lift _) fun _ =>
        keeps_bind (Routed.keeps_onHost (Hosted.keeps_note rfl)) fun _ => keeps_pure _
    refine keeps_bind (fun _ => rfl) fun _ => keeps_bind (fun _ => rfl) fun site => ?_
    cases site.router.registry with
    | none => exact hnoted
    | some r =>
      exact keeps_bind (Routed.keeps_onHost (r.keeps_publishProduct probe)) fun _ => hnoted

end Router

namespace Settings

variable {catalogue : Catalogue}

/-- `registerAll` fails alike for a path that leads nowhere and for one whose factory fails. -/
theorem registerAll_cons (path : String) (paths : List String) :
    registerAll catalogue (path :: paths) =
      match catalogue.productAt path with
      | .error failure => throw failure
      | .ok p => Router.register (Factory.constant (.ok p)) >>= fun _ =>
        registerAll catalogue paths := by
  cases hresolve : catalogue.resolve path with
  | error failure =>
    have hproduct : catalogue.productAt path = .error failure := by
      rw [Catalogue.productAt, hresolve]
      rfl
    rw [registerAll, hresolve, hproduct]
  | ok callee =>
    have hproduct : catalogue.productAt path = callee.outcome := by
      rw [Catalogue.productAt, hresolve]
      rfl
    rw [registerAll, hresolve, hproduct]
    cases houtcome : callee.outcome <;> simp only [houtcome]
    rfl

theorem keeps_registerAll (paths : List String) :
    Keeps Site.ground (registerAll catalogue paths) := by
  induction paths with
  | nil => exact keeps_pure ()
  | cons path paths ih =>
    rw [registerAll_cons]
    cases catalogue.productAt path with
    | error failure => exact keeps_throw failure
    | ok p => exact keeps_bind (Router.keeps_register _) fun _ => ih

/-- A successful `registerAll` has added `routeOf` the product of each path, and each product has a
name. -/
theorem registerAll_eq_ok {paths : List String} {site later : Site}
    (hrun : (registerAll catalogue paths).run.run site = (.ok (), later)) :
    ∃ products, catalogue.productsAt paths = .ok products ∧
      later.router.routes = site.router.routes ++ products.map Router.routeOf ∧
      ∀ p ∈ products, ∃ name, p.name = .ok name := by
  induction paths generalizing site with
  | nil =>
    obtain rfl : site = later := (Prod.mk.inj hrun).2
    exact ⟨[], rfl, by simp, nofun⟩
  | cons path paths ih =>
    rw [registerAll_cons] at hrun
    cases hproduct : catalogue.productAt path with
    | error failure => rw [hproduct] at hrun; cases hrun
    | ok p =>
      simp only [hproduct, run_run_bind] at hrun
      have hends := Router.registers_register site (Factory.constant (.ok p))
      cases hregister : (Router.register (Factory.constant (.ok p))).run.run site with
      | mk result middle =>
        rw [hregister] at hrun hends
        cases result with
        | error failure => cases hrun
        | ok probe =>
          obtain ⟨hnext, hrouter, hname⟩ := hends.of_ok
          obtain rfl : p = probe := Except.ok.inj hnext
          obtain ⟨products, hproducts, hroutes, hnames⟩ := ih hrun
          refine ⟨p :: products, ?_, ?_, List.forall_mem_cons.2 ⟨hname, hnames⟩⟩
          · rw [Catalogue.productsAt_cons_of_ok hproduct, hproducts]
            rfl
          · rw [hroutes, hrouter, Router.withRoute, List.append_assoc, List.map_cons]
            rfl

/-- `registerAll` over a registry in memory succeeds if every path leads to a command. -/
theorem exists_run_registerAll_of_inMemory {paths : List String} {commands : List Command}
    {site : Site} {r : Registry} (hregistry : site.router.registry = some r)
    (hmemory : r.InMemory site.host)
    (hproducts : catalogue.productsAt paths = .ok (commands.map .command)) :
    ∃ later, (registerAll catalogue paths).run.run site = (.ok (), later) := by
  induction paths generalizing site commands with
  | nil => exact ⟨site, rfl⟩
  | cons path paths ih =>
    cases hproduct : catalogue.productAt path with
    | error failure =>
      rw [Catalogue.productsAt, List.mapM_cons, hproduct] at hproducts
      cases hproducts
    | ok p =>
      rw [Catalogue.productsAt_cons_of_ok hproduct] at hproducts
      obtain ⟨products, hrest⟩ : ∃ products, catalogue.productsAt paths = .ok products := by
        cases hrest : catalogue.productsAt paths with
        | error failure => rw [hrest] at hproducts; cases hproducts
        | ok products => exact ⟨products, rfl⟩
      rw [hrest] at hproducts
      obtain ⟨c, commands, rfl, rfl, rfl⟩ :=
        List.map_eq_cons_iff.1 (Except.ok.inj hproducts).symm
      have hends := Router.registers_register site (Factory.constant (.ok (.command c)))
      rw [registerAll_cons, hproduct]
      simp only [run_run_bind]
      cases hregister : (Router.register (Factory.constant (.ok (.command c)))).run.run site with
      | mk result middle =>
        rw [hregister] at hends
        obtain rfl := hends.eq_ok_of_command rfl fun _ hsame => by
          rwa [← Option.some.inj (hregistry.symm.trans hsame)]
        exact ih (hends.registry_eq.trans hregistry) (hends.inMemory hregistry hmemory) hrest

/-- What a failure of `registerAll` comes from. -/
inductive FailsAt (catalogue : Catalogue) (registry : Registry) (paths : List String) :
    Failure → Prop
  | unresolved {before after : List String} {path : String} {products : List Product}
    {failure : Failure} (hpaths : paths = before ++ path :: after)
    (hbefore : catalogue.productsAt before = .ok products)
    (hresolve : catalogue.resolve path = .error failure) :
    FailsAt catalogue registry paths failure
  | unbuilt {before after : List String} {path : String} {products : List Product}
    {callee : Callee} {failure : Failure} (hpaths : paths = before ++ path :: after)
    (hbefore : catalogue.productsAt before = .ok products)
    (hresolve : catalogue.resolve path = .ok callee) (houtcome : callee.outcome = .error failure) :
    FailsAt catalogue registry paths failure
  | unpublished {before after : List String} {path : String} {products : List Product}
    {p : Product} {h : Host} {failure : Failure} (hpaths : paths = before ++ path :: after)
    (hbefore : catalogue.productsAt before = .ok products)
    (hproduct : catalogue.productAt path = .ok p)
    (hends : registry.Publishes h p (.error failure, h)) :
    FailsAt catalogue registry paths failure

theorem FailsAt.cons {registry : Registry} {path : String} {paths : List String} {failure : Failure}
    {p : Product} (hproduct : catalogue.productAt path = .ok p)
    (h : FailsAt catalogue registry paths failure) :
    FailsAt catalogue registry (path :: paths) failure := by
  have hcons {before : List String} {products : List Product}
      (hbefore : catalogue.productsAt before = .ok products) :
      catalogue.productsAt (path :: before) = .ok (p :: products) := by
    rw [Catalogue.productsAt_cons_of_ok hproduct, hbefore]
    rfl
  cases h with
  | @unresolved before _ _ _ _ hpaths hbefore hresolve =>
    exact .unresolved (congrArg (path :: ·) hpaths) (hcons hbefore) hresolve
  | unbuilt hpaths hbefore hresolve houtcome =>
    exact .unbuilt (congrArg (path :: ·) hpaths) (hcons hbefore) hresolve houtcome
  | unpublished hpaths hbefore hlast hends =>
    exact .unpublished (congrArg (path :: ·) hpaths) (hcons hbefore) hlast hends

theorem failsAt_of_registerAll {registry : Registry} {paths : List String} {site later : Site}
    {failure : Failure} (hregistry : site.router.registry = some registry)
    (hrun : (registerAll catalogue paths).run.run site = (.error failure, later)) :
    FailsAt catalogue registry paths failure := by
  induction paths generalizing site with
  | nil => cases hrun
  | cons path paths ih =>
    rw [registerAll_cons] at hrun
    cases hproduct : catalogue.productAt path with
    | error other =>
      rw [hproduct] at hrun
      obtain rfl : other = failure := Except.error.inj (congrArg Prod.fst hrun)
      cases hresolve : catalogue.resolve path with
      | error failure =>
        rw [Catalogue.productAt, hresolve] at hproduct
        cases hproduct
        exact .unresolved (List.nil_append _).symm rfl hresolve
      | ok callee =>
        rw [Catalogue.productAt, hresolve] at hproduct
        exact .unbuilt (List.nil_append _).symm rfl hresolve hproduct
    | ok p =>
      simp only [hproduct, run_run_bind] at hrun
      have hends := Router.registers_register site (Factory.constant (.ok p))
      cases hregister : (Router.register (Factory.constant (.ok p))).run.run site with
      | mk result middle =>
        rw [hregister] at hrun hends
        cases result with
        | ok probe => exact (ih (hends.registry_eq.trans hregistry) hrun).cons hproduct
        | error other =>
          obtain rfl : other = failure := Except.error.inj (congrArg Prod.fst hrun)
          generalize middle = after at hends
          cases hends with
          | unbuilt hnext => cases hnext
          | nameless _ hnone => cases hregistry.symm.trans hnone
          | unpublished hnext hsome hpublishes =>
            cases hnext
            obtain rfl := Option.some.inj (hregistry.symm.trans hsome)
            exact .unpublished (List.nil_append _).symm rfl hproduct hpublishes

/-! ## From settings to a router -/

/-- How `registerAll` ends on the registry that has been opened. -/
def TakesUp (catalogue : Catalogue) (s : Settings) (h : Host) (ended : Except Failure Unit × Site) :
    Prop :=
  ∃ registry opened, s.registry.openRegistry.run.run h = (.ok registry, opened) ∧
    (registerAll catalogue s.commands).run.run ⟨Router.empty (some registry), opened⟩ = ended

theorem TakesUp.unique {s : Settings} {h : Host} {ended other : Except Failure Unit × Site}
    (hended : TakesUp catalogue s h ended) (hother : TakesUp catalogue s h other) :
    ended = other := by
  obtain ⟨registry, opened, hopen, rfl⟩ := hended
  obtain ⟨_, _, hopen', rfl⟩ := hother
  cases hopen.symm.trans hopen'
  rfl

/-- How `openRouter` ends, and the standing of the host then. -/
inductive Opening (catalogue : Catalogue) (s : Settings) (h : Host) :
    Except Failure Router → Standing → Prop
  -- the registry is a database that cannot be opened
  | refused (failure : Failure) (hbackend : s.registry.backend = .sqlite)
    (hkind : failure.kind ≠ .config)
    (hrefused : (s.registry.openRegistry.run.run h).1 = .error failure) :
    Opening catalogue s h (.error failure) h.standing
  -- the registry is open, and the router has what the factories at the paths make
  | built (products : List Product) (later : Site)
    (htaken : TakesUp catalogue s h (.ok (), later))
    (hproducts : catalogue.productsAt s.commands = .ok products)
    (hnames : ∀ p ∈ products, ∃ name, p.name = .ok name) :
    Opening catalogue s h
      (.ok ⟨some ⟨h.stores.length, s.registry.keyPrefix⟩, products.map Router.routeOf⟩)
      (h.standing.opened s.registry.backend.connection?)
  -- the settings are at fault, and the registry is closed again
  | closed (failure : Failure) (later : Site)
    (htaken : TakesUp catalogue s h (.error failure, later)) (hkind : failure.kind = .config) :
    Opening catalogue s h (.error failure)
      ((h.standing.opened s.registry.backend.connection?).closed h.stores.length)
  -- something else than the settings is at fault, and the registry stays open
  | leftOpen (failure : Failure) (later : Site)
    (htaken : TakesUp catalogue s h (.error failure, later)) (hkind : failure.kind ≠ .config) :
    Opening catalogue s h (.error failure) (h.standing.opened s.registry.backend.connection?)

theorem run_onRouter {α : Type} (router : Router) (work : Routed α) (h : Host) :
    (work.onRouter router).run.run h =
      (.ok ((work.run.run ⟨router, h⟩).1, (work.run.run ⟨router, h⟩).2.router),
        (work.run.run ⟨router, h⟩).2.host) := rfl

/-- `openRouter` ends in one of the ways of `Opening`. -/
theorem opening_openRouter (catalogue : Catalogue) (s : Settings) (h : Host) :
    Opening catalogue s h ((s.openRouter catalogue).run.run h).1
      ((s.openRouter catalogue).run.run h).2.standing := by
  rw [openRouter, run_run_bind]
  rcases s.registry.run_openRegistry_cases h with
    ⟨opened, hopen, hopened⟩ | ⟨hbackend, failure, later, hrun, hkind, hstanding⟩
  · simp only [hopen, run_run_bind, run_onRouter]
    have hground := @keeps_registerAll catalogue s.commands
      ⟨Router.empty (some ⟨h.stores.length, s.registry.keyPrefix⟩), opened⟩
    cases htaken : (registerAll catalogue s.commands).run.run
        ⟨Router.empty (some ⟨h.stores.length, s.registry.keyPrefix⟩), opened⟩ with
    | mk result later =>
      rw [htaken] at hground
      obtain ⟨hregistry, hlater⟩ := Prod.mk.inj hground
      have hstanding := hlater.trans hopened
      cases result with
      | ok =>
        obtain ⟨products, hproducts, hroutes, hnames⟩ := registerAll_eq_ok htaken
        have hrouter : later.router =
            ⟨some ⟨h.stores.length, s.registry.keyPrefix⟩, products.map Router.routeOf⟩ := by
          rw [← hregistry.trans (rfl : _ = some _), ← hroutes.trans (List.nil_append _)]
        rw [hrouter]
        exact hstanding ▸ .built products later ⟨_, _, hopen, htaken⟩ hproducts hnames
      | error failure =>
        by_cases hkind : failure.kind = .config
        · obtain ⟨last, hclose, -, hlast⟩ := Hosted.exists_run_close h.stores.length later.host
          simp only [if_pos hkind, run_run_bind, Registry.close, hclose]
          rw [hstanding] at hlast
          exact hlast ▸ .closed failure later ⟨_, _, hopen, htaken⟩ hkind
        · simp only [if_neg hkind]
          exact hstanding ▸ .leftOpen failure later ⟨_, _, hopen, htaken⟩ hkind
  · simp only [hrun]
    exact hstanding ▸ .refused failure hbackend hkind (congrArg Prod.fst hrun)

end Settings

end ChatCommands
