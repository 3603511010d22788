import ChatCommands.Proofs.RegistryCalls
import ChatCommands.Proofs.Routing

/-!
# How a router takes up a command

A router takes up a command in three steps: it has an instance built, adds the route, and publishes
the instance. Any of them can fail. If the first fails, nothing has happened; but when the instance
is not published, because the store denies it or because it lacks what a command has, the route is
there already and stays. `registers_register` lists the ways in which a registration ends, with what
each leaves.
-/

namespace ChatCommands

/-! ## Publishing what a factory has made -/

namespace Registry

/-- How `publishProduct` ends, and the host after it. -/
inductive Publishes (r : Registry) (h : Host) : Product → Except Failure Unit × Host → Prop
  | unread {p : Product} {name : String} {failure : StoreFailure} (hname : p.name = .ok name)
    (hdenied : h.denied? r.store (.read (r.key name)) = some failure) :
    Publishes r h p (.error (.store failure), h)
  | unwritten {c : Command} {content : Content} {failure : StoreFailure}
    (hserved : h.denied? r.store (.read (r.key c.name)) = none)
    (hopen : h.content? r.store = some content) (hget : content.get? (r.key c.name) = none)
    (hdenied : h.denied? r.store (.write (r.key c.name) (Entry.toHash ⟨c.name, c.help⟩)) =
      some failure) :
    Publishes r h (.command c) (.error (.store failure), h)
  -- what is no command may lack a name to look up
  | unnamed {className : String} :
    Publishes r h (.object className none) (.error (.missingMember className "name"), h)
  -- and it has no help to write, if nothing is under its name
  | unwritable {className name : String} {content : Content}
    (hserved : h.denied? r.store (.read (r.key name)) = none)
    (hopen : h.content? r.store = some content) (hget : content.get? (r.key name) = none) :
    Publishes r h (.object className (some name)) (.error (.missingMember className "help"), h)
  | found {p : Product} {name : String} {c : Content} {hash : Hash} (hname : p.name = .ok name)
    (hserved : h.denied? r.store (.read (r.key name)) = none)
    (hopen : h.content? r.store = some c) (hget : c.get? (r.key name) = some hash) :
    Publishes r h p (.ok (), h.noted (.alreadyPublished name))
  | written {command : Command} {c : Content} {after : Host}
    (hserved : h.denied? r.store (.read (r.key command.name)) = none)
    (hopen : h.content? r.store = some c) (hget : c.get? (r.key command.name) = none)
    (hwritten : Host.Written r.store (r.key command.name)
      (Entry.toHash ⟨command.name, command.help⟩) h after) :
    Publishes r h (.command command) (.ok (), after.noted (.published command.name))

theorem publishes_publishProduct (r : Registry) (p : Product) (h : Host) :
    Publishes r h p ((r.publishProduct p).run.run h) := by
  rcases p with command | ⟨className, _ | name⟩
  · have hpublish : (r.publishProduct (.command command)).run.run h =
        (((r.addCommand command).run.run h).1.map fun _ => (),
          ((r.addCommand command).run.run h).2) :=
      run_run_bind_pure (r.addCommand command) (fun _ => ()) h
    rw [hpublish]
    generalize hrun : (r.addCommand command).run.run h = ended
    cases (hrun ▸ r.add_ends ⟨command.name, command.help⟩ h : AddEnds r _ h ended) with
    | unread hdenied => exact .unread rfl hdenied
    | found hserved hopen hget => exact .found rfl hserved hopen hget
    | unwritten hserved hopen hget hdenied => exact .unwritten hserved hopen hget hdenied
    | written hserved hopen hget hwritten _ => exact .written hserved hopen hget hwritten
  · exact .unnamed
  · -- an object with a name is looked up, and has no help to write
    rw [publishProduct, run_run_bind]
    cases hserved : h.denied? r.store (.read (r.key name)) with
    | some failure =>
      rw [run_isPublished_of_denied hserved]
      exact .unread rfl hserved
    | none =>
      obtain ⟨c, hopen⟩ := Host.exists_content?_of_denied?_eq_none hserved
      rw [run_isPublished hopen hserved]
      cases hget : c.get? (r.key name) with
      | none => exact .unwritable hserved hopen hget
      | some hash => exact .found rfl hserved hopen hget

variable {r : Registry} {p : Product} {h later : Host}

theorem Publishes.host_eq {failure : Failure} (hends : Publishes r h p (.error failure, later)) :
    later = h := by
  cases hends <;> rfl

theorem Publishes.exists_name (hends : Publishes r h p (.ok (), later)) :
    ∃ name, p.name = .ok name := by
  cases hends with
  | found hname => exact ⟨_, hname⟩
  | @written command => exact ⟨command.name, rfl⟩

/-- The entries of the registry are in memory. -/
def InMemory (r : Registry) (h : Host) : Prop := ∃ m, h.content? r.store = some (.memory m)

theorem Publishes.inMemory {p : Product} {result : Except Failure Unit} {later : Host}
    (hends : r.Publishes h p (result, later)) (hmemory : r.InMemory h) : r.InMemory later := by
  cases hends with
  | unread => exact hmemory
  | unwritten => exact hmemory
  | unnamed => exact hmemory
  | unwritable => exact hmemory
  | found => exact hmemory
  | @written command c after _ hopen hget hwritten =>
    obtain ⟨m, hcontent⟩ := hmemory
    have hself := hwritten.self
    rw [hcontent] at hself
    exact ⟨_, hself⟩

theorem Publishes.eq_ok_of_command {c : Command} {result : Except Failure Unit}
    (hends : r.Publishes h (.command c) (result, later)) (hmemory : r.InMemory h) :
    result = .ok () := by
  obtain ⟨m, hcontent⟩ := hmemory
  cases hends with
  | unread _ hdenied => cases (Host.denied?_of_memory hcontent _).symm.trans hdenied
  | unwritten _ _ _ hdenied => cases (Host.denied?_of_memory hcontent _).symm.trans hdenied
  | found => rfl
  | written => rfl

end Registry

namespace Router

/-! ## Registering -/

/-- The router with one more route at the end. -/
def withRoute (r : Router) (probe : Product) (factory : Factory) : Router :=
  { r with routes := r.routes ++ [⟨probe, factory.advance⟩] }

/-- How `register` ends, and what it leaves. -/
inductive Registers (site : Site) (factory : Factory) : Except Failure Product → Site → Prop
  -- no instance is built, and nothing has happened
  | unbuilt {failure : Failure} (hnext : factory.next = .error failure) :
    Registers site factory (.error failure) site
  -- the instance is not published; its route is there nevertheless
  | unpublished {probe : Product} {r : Registry} {failure : Failure}
    (hnext : factory.next = .ok probe) (hregistry : site.router.registry = some r)
    (hends : r.Publishes site.host probe (.error failure, site.host)) :
    Registers site factory (.error failure)
      { site with router := site.router.withRoute probe factory }
  -- there is no registry, and what is built lacks a name; its route is there nevertheless
  | nameless {className : String} (hnext : factory.next = .ok (.object className none))
    (hregistry : site.router.registry = none) :
    Registers site factory (.error (.missingMember className "name"))
      { site with router := site.router.withRoute (.object className none) factory }
  -- there is no registry to publish the instance in
  | unlisted {probe : Product} {name : String} (hnext : factory.next = .ok probe)
    (hregistry : site.router.registry = none) (hname : probe.name = .ok name) :
    Registers site factory (.ok probe)
      ⟨site.router.withRoute probe factory, site.host.noted (.routed name probe.label)⟩
  -- the instance is published, unless something is under its name
  | listed {probe : Product} {name : String} {r : Registry} {later : Host}
    (hnext : factory.next = .ok probe) (hregistry : site.router.registry = some r)
    (hname : probe.name = .ok name) (hends : r.Publishes site.host probe (.ok (), later)) :
    Registers site factory (.ok probe)
      ⟨site.router.withRoute probe factory, later.noted (.routed name probe.label)⟩

/-- `register` ends in one of the ways of `Registers`. -/
theorem registers_register (site : Site) (factory : Factory) :
    Registers site factory ((register factory).run.run site).1
      ((register factory).run.run site).2 := by
  obtain ⟨⟨registry, routes⟩, host⟩ := site
  cases hnext : factory.next with
  | error failure =>
    simp only [register, hnext]
    exact .unbuilt hnext
  | ok probe =>
    simp only [register, hnext, run_run_bind, run_modifyRoutes, run_run_get]
    cases registry with
    | none =>
      rcases probe with c | ⟨className, _ | name⟩
      · exact .unlisted hnext rfl rfl
      · exact .nameless hnext rfl
      · exact .unlisted hnext rfl rfl
    | some r =>
      have hends := r.publishes_publishProduct probe host
      simp only [run_run_bind, run_onHost]
      generalize (r.publishProduct probe).run.run host = ended at hends ⊢
      obtain ⟨failure | ⟨⟩, later⟩ := ended
      · obtain rfl := hends.host_eq
        exact .unpublished hnext rfl hends
      · obtain ⟨name, hname⟩ := hends.exists_name
        simp only [hname]
        exact .listed hnext rfl hname hends

section
variable {site later : Site} {factory : Factory} {result : Except Failure Product} {r : Registry}

theorem Registers.registry_eq (h : Registers site factory result later) :
    later.router.registry = site.router.registry := by
  cases h <;> rfl

/-- A product that is taken up has a name, and its route is the last. -/
theorem Registers.of_ok {probe : Product} (h : Registers site factory (.ok probe) later) :
    factory.next = .ok probe ∧ later.router = site.router.withRoute probe factory ∧
      ∃ name, probe.name = .ok name := by
  cases h with
  | unlisted hnext _ hname => exact ⟨hnext, rfl, _, hname⟩
  | listed hnext _ hname _ => exact ⟨hnext, rfl, _, hname⟩

/-- A failed registration leaves the site as it was, or with one more route. -/
theorem Registers.of_error {failure : Failure} (h : Registers site factory (.error failure) later) :
    (factory.next = .error failure ∧ later = site) ∨
      ∃ probe, factory.next = .ok probe ∧
        later = { site with router := site.router.withRoute probe factory } := by
  cases h with
  | unbuilt hnext => exact .inl ⟨hnext, rfl⟩
  | unpublished hnext => exact .inr ⟨_, hnext, rfl⟩
  | nameless hnext => exact .inr ⟨_, hnext, rfl⟩

theorem Registers.inMemory (h : Registers site factory result later)
    (hregistry : site.router.registry = some r) (hmemory : r.InMemory site.host) :
    r.InMemory later.host := by
  cases h with
  | unbuilt => exact hmemory
  | unpublished => exact hmemory
  | nameless => exact hmemory
  | unlisted => exact hmemory
  | @listed _ _ _ after _ hsame _ hends =>
    obtain rfl := Option.some.inj (hregistry.symm.trans hsame)
    have hafter : r.InMemory after := hends.inMemory hmemory
    exact hafter

/-- A registration of a command does not fail over a registry in memory, or over none. -/
theorem Registers.eq_ok_of_command (h : Registers site factory result later) {c : Command}
    (hnext : factory.next = .ok (.command c))
    (hmemory : ∀ r, site.router.registry = some r → r.InMemory site.host) :
    result = .ok (.command c) := by
  cases h with
  | unbuilt hfails => cases hnext.symm.trans hfails
  | nameless hobject => cases hnext.symm.trans hobject
  | unlisted hbuilt => rw [← hnext, hbuilt]
  | listed hbuilt => rw [← hnext, hbuilt]
  | unpublished hbuilt hregistry hends =>
    obtain rfl := Except.ok.inj (hbuilt.symm.trans hnext)
    cases hends.eq_ok_of_command (hmemory _ hregistry)

end

end Router

end ChatCommands
