import ChatCommands.Proofs.CommandWork
import ChatCommands.Proofs.RegistryIsolation
import ChatCommands.Startup

/-!
# When stores are opened and closed

A store is opened and closed with an event, and a connection is open from the one to the other. The
*standing* of a host is which events of this kind there have been and which stores are open. Most
work keeps it: that of a command (`keeps_execute`), and the publishing of one (`keeps_addCommand`),
be it denied or not.
Opening adds a store that is open, or fails and keeps the standing (`run_openRegistry_cases`);
closing never fails (`exists_run_close`).
-/

namespace ChatCommands

/-! ## Keeping a view of the state -/

section
variable {ε σ τ α β : Type} {view : σ → τ}

/-- Work that leaves `view` of the state as it is, however it ends. -/
def Keeps (view : σ → τ) (work : ExceptT ε (StateM σ) α) : Prop :=
  ∀ s, view (work.run.run s).2 = view s

theorem keeps_pure (a : α) : Keeps view (pure a : ExceptT ε (StateM σ) α) := fun _ => rfl

theorem keeps_throw (failure : ε) : Keeps view (throw failure : ExceptT ε (StateM σ) α) :=
  fun _ => rfl

theorem keeps_bind {work : ExceptT ε (StateM σ) α} {next : α → ExceptT ε (StateM σ) β}
    (hwork : Keeps view work) (hnext : ∀ a, Keeps view (next a)) : Keeps view (work >>= next) := by
  intro s
  have hmiddle := hwork s
  rw [run_run_bind]
  cases hrun : work.run.run s with
  | mk result t =>
    rw [hrun] at hmiddle
    cases result with
    | error failure => exact hmiddle
    | ok a => exact (hnext a t).trans hmiddle

theorem keeps_forM {xs : List α} {f : α → ExceptT ε (StateM σ) Unit}
    (h : ∀ x, Keeps view (f x)) : Keeps view (xs.forM f) := by
  induction xs with
  | nil => exact keeps_pure ()
  | cons x xs ih => exact keeps_bind (h x) fun _ => ih

end

/-! ## Events of stores -/

def Event.isOfStore : Event → Bool
  | opened _ => true
  | closed _ => true
  | _ => false

def Frame.dealings (frame : Frame) : List Event := frame.events.filter Event.isOfStore

namespace Command

theorem keeps_note {event : Event} (hevent : event.isOfStore = false) :
    Keeps Frame.dealings (Work.note event) := by
  intro frame
  rw [Work.run_note, Frame.dealings, List.filter_append, List.filter_cons_of_neg (by simp [hevent])]
  exact List.append_nil _

theorem keeps_act {α : Type} (action : Action α) : Keeps Frame.dealings (Work.act action) :=
  fun _ => rfl

theorem keeps_fill (c : Command) (line : String) : Keeps Frame.dealings (c.fill line) := by
  have hcall (call : Call) : Keeps Frame.dealings (makeCall call) :=
    keeps_bind (keeps_note rfl) fun _ => keeps_act _
  have hvalid : Keeps Frame.dealings c.ensureValid :=
    keeps_bind (keeps_note rfl) fun _ => keeps_bind (keeps_act _) fun valid => by
      cases valid
      · exact keeps_throw _
      · exact keeps_pure ()
  rw [fill_eq]
  exact keeps_bind (fun _ => rfl) fun _ => keeps_bind (keeps_forM hcall) fun _ => hvalid

theorem keeps_renderHelp (c : Command) (line : String) :
    Keeps Frame.dealings (c.renderHelp line) := by
  simp only [renderHelp]
  split
  · exact keeps_bind (keeps_note rfl) fun _ => keeps_pure _
  · split
    · exact keeps_throw _
    · exact keeps_bind (keeps_note rfl) fun _ => keeps_pure _

/-- No command opens or closes a store. -/
theorem keeps_execute (c : Command) (line : String) : Keeps Frame.dealings (c.execute line) := by
  have haddressed : Keeps Frame.dealings (c.ensureAddressed line) := by
    rw [ensureAddressed]
    split
    · exact keeps_pure ()
    · exact keeps_throw _
  have hperform : Keeps Frame.dealings c.perform :=
    keeps_bind (keeps_note rfl) fun _ => keeps_bind (keeps_act _) fun _ => keeps_act _
  refine keeps_bind haddressed fun _ => ?_
  split
  · exact keeps_bind (keeps_renderHelp c line) fun _ => keeps_pure _
  · exact keeps_bind (keeps_fill c line) fun _ => hperform

end Command

/-! ## The standing of a host -/

/-- Whether the connection of a store is open; `none` for hashes in memory. -/
def Store.connection? : Store → Option Bool
  | .memory _ => none
  | .connection _ isOpen => some isOpen

/-- The events `opened` and `closed` so far, and which connections are open. -/
structure Standing where
  dealings : List Event
  -- whether the connection of a store is open, for each store
  connections : List (Option Bool)
deriving DecidableEq

namespace Standing

def start : Standing := ⟨[], []⟩

def opened (s : Standing) (connection : Option Bool) : Standing :=
  ⟨s.dealings ++ [.opened s.connections.length], s.connections ++ [connection]⟩

def closed (s : Standing) (id : StoreId) : Standing :=
  ⟨s.dealings ++ [.closed id], s.connections.modify id (Option.map fun _ => false)⟩

end Standing

namespace Host

def standing (h : Host) : Standing :=
  ⟨h.events.filter Event.isOfStore, h.stores.map Store.connection?⟩

theorem standing_noted {event : Event} (hevent : event.isOfStore = false) (h : Host) :
    (h.noted event).standing = h.standing := by
  rw [standing, noted, List.filter_append, List.filter_cons_of_neg (by simp [hevent])]
  exact congrArg (Standing.mk · _) (List.append_nil _)

theorem length_stores_eq {h later : Host} (hstanding : later.standing = h.standing) :
    later.stores.length = h.stores.length := by
  simpa [standing] using congrArg (fun s => s.connections.length) hstanding

end Host

namespace Hosted

theorem keeps_note {event : Event} (hevent : event.isOfStore = false) :
    Keeps Host.standing (note event) := fun h => h.standing_noted hevent

theorem keeps_getHash (id : StoreId) (key : String) : Keeps Host.standing (getHash id key) :=
  fun h => congrArg Host.standing (getHash_host id key h)

/-- `setHash` keeps the standing: the store that it puts is as open as the one before. -/
theorem keeps_setHash (id : StoreId) (key : String) (hash : Hash) :
    Keeps Host.standing (setHash id key hash) := by
  intro h
  have hset {old new : Store} (hold : h.stores[id]? = some old)
      (hsame : new.connection? = old.connection?) :
      (h.withStore id new).standing = h.standing := by
    obtain ⟨hlt, rfl⟩ := List.getElem?_eq_some_iff.1 hold
    rw [Host.standing, Host.withStore, List.map_set, hsame,
      ← List.getElem_map Store.connection? (h := by simpa using hlt), List.set_getElem_self]
    rfl
  simp only [setHash, run_run_bind, run_run_get]
  rcases hstore : h.stores[id]? with _ | m | ⟨database, _ | _⟩
  · rfl
  · exact hset hstore rfl
  · rfl
  · -- an open connection, whose database may refuse the hash
    simp only [run_run_bind]
    cases hdenied : h.denialOf (.write key hash) (.connection database true) with
    | some failure => rw [run_ask_of_denied hdenied]
    | none =>
      rw [run_ask hdenied]
      cases database with
      | file names => rfl
      | own table => exact hset hstore rfl

end Hosted

namespace Registry

theorem keeps_isPublished (r : Registry) (name : String) :
    Keeps Host.standing (r.isPublished name) :=
  keeps_bind (Hosted.keeps_getHash _ _) fun _ => keeps_pure _

theorem keeps_addCommand (r : Registry) (c : Command) : Keeps Host.standing (r.addCommand c) := by
  refine keeps_bind (r.keeps_isPublished c.name) fun published => ?_
  cases published with
  | true => exact keeps_bind (Hosted.keeps_note rfl) fun _ => keeps_pure _
  | false =>
    exact keeps_bind (Hosted.keeps_setHash _ _ _) fun _ =>
      keeps_bind (Hosted.keeps_note rfl) fun _ => keeps_pure _

theorem keeps_publishProduct (r : Registry) (p : Product) :
    Keeps Host.standing (r.publishProduct p) := by
  rcases p with c | ⟨className, _ | name⟩
  · exact keeps_bind (r.keeps_addCommand c) fun _ => keeps_pure ()
  · exact keeps_throw _
  · refine keeps_bind (r.keeps_isPublished name) fun published => ?_
    cases published with
    | true => exact Hosted.keeps_note rfl
    | false => exact keeps_throw _

end Registry

/-! ## Opening -/

theorem StoreFailure.kind_ne_config (failure : StoreFailure) :
    (Failure.store failure).kind ≠ .config := by
  rcases failure with _ | _ | _ | _ | _ | (_ | _) <;> exact nofun

namespace Hosted

/-- `work` keeps the standing, and no failure of it has kind `config`. -/
def FailsOutside {α : Type} (work : Hosted α) : Prop :=
  Keeps Host.standing work ∧
    ∀ h failure, (work.run.run h).1 = .error failure → failure.kind ≠ .config

theorem failsOutside_pure {α : Type} (a : α) : FailsOutside (pure a) :=
  ⟨keeps_pure a, fun _ _ => nofun⟩

theorem failsOutside_refuse {α : Type} (failure : StoreFailure) :
    FailsOutside (refuse failure : Hosted α) := by
  refine ⟨keeps_throw _, ?_⟩
  rintro h _ ⟨⟩
  exact failure.kind_ne_config

theorem failsOutside_bind {α β : Type} {work : Hosted α} {next : α → Hosted β}
    (hwork : FailsOutside work) (hnext : ∀ a, FailsOutside (next a)) :
    FailsOutside (work >>= next) := by
  refine ⟨keeps_bind hwork.1 fun a => (hnext a).1, fun h failure hfails => ?_⟩
  have hkind := hwork.2 h
  rw [run_run_bind] at hfails
  cases hrun : work.run.run h with
  | mk result later =>
    rw [hrun] at hfails hkind
    cases result with
    | error other =>
      cases hfails
      exact hkind failure rfl
    | ok a => exact (hnext a).2 later failure hfails

theorem failsOutside_get {α : Type} {next : Host → Hosted α}
    (hnext : ∀ h, FailsOutside (next h)) : FailsOutside (get >>= next) :=
  failsOutside_bind ⟨fun _ => rfl, fun _ _ => nofun⟩ hnext

theorem failsOutside_ask (database : Database) (statement : Statement) :
    FailsOutside (ask database statement) := by
  refine failsOutside_get fun h => ?_
  cases h.refusal? database statement with
  | none => exact failsOutside_pure ()
  | some refusal => exact failsOutside_refuse _

theorem failsOutside_createDatabase (names : List String) :
    FailsOutside (createDatabase names) := by
  have houtcome (h : Host) :
      ((createDatabase names).run.run h).2.standing = h.standing ∧
        ∀ failure, ((createDatabase names).run.run h).1 = .error failure →
          failure.kind ≠ .config := by
    simp only [createDatabase, run_run_bind, run_run_get]
    cases h.refusal? (.file names) .create with
    | none => exact ⟨rfl, nofun⟩
    | some refusal =>
      refine ⟨rfl, ?_⟩
      rintro _ ⟨⟩
      exact StoreFailure.kind_ne_config _
  exact ⟨fun h => (houtcome h).1, fun h => (houtcome h).2⟩

/-- `ensureDatabase` changes the files at most, and its failures are not of kind `config`. -/
theorem failsOutside_ensureDatabase (l : Location) : FailsOutside (ensureDatabase l) := by
  refine failsOutside_get fun h => ?_
  simp only
  split
  · exact failsOutside_refuse _
  · split
    · exact failsOutside_refuse _
    · rename_i files _
      refine failsOutside_bind ⟨fun _ => rfl, fun _ _ => nofun⟩ fun _ => ?_
      cases files.locate l with
      | missing => exact failsOutside_refuse _
      | blocked => exact failsOutside_refuse _
      | above => exact failsOutside_refuse _
      | vacant names =>
        exact failsOutside_bind (failsOutside_createDatabase names) fun _ => failsOutside_pure _
      | node names node =>
        rcases node with _ | (_ | ⟨byte, content⟩) | table
        · exact failsOutside_refuse _
        · exact failsOutside_bind (failsOutside_createDatabase names) fun _ => failsOutside_pure _
        · exact failsOutside_refuse _
        · exact failsOutside_bind (failsOutside_ask _ _) fun _ => failsOutside_pure _

theorem exists_run_addStore (store : Store) (h : Host) :
    ∃ later, (addStore store).run.run h = (.ok h.stores.length, later) ∧
      later.standing = h.standing.opened store.connection? := by
  refine ⟨_, rfl, ?_⟩
  simp [Host.standing, Standing.opened, Host.noted, Event.isOfStore]

/-- A connection is added if the work before it does not fail. -/
theorem run_connect_cases {α : Type} {work : Hosted α} (hwork : FailsOutside work)
    (database : α → Database) (h : Host) :
    (∃ later, (work >>= fun a => addStore (.connection (database a) true)).run.run h =
          (.ok h.stores.length, later) ∧
        later.standing = h.standing.opened (some true)) ∨
      ∃ failure later, (work >>= fun a => addStore (.connection (database a) true)).run.run h =
          (.error failure, later) ∧
        failure.kind ≠ .config ∧ later.standing = h.standing := by
  have hstanding := hwork.1 h
  have hkind := hwork.2 h
  rw [run_run_bind]
  cases hrun : work.run.run h with
  | mk result later =>
    rw [hrun] at hstanding hkind
    cases result with
    | error failure => exact .inr ⟨_, _, rfl, hkind failure rfl, hstanding⟩
    | ok a =>
      have hadded := exists_run_addStore (.connection (database a) true) later
      rw [hstanding, Host.length_stores_eq hstanding] at hadded
      exact .inl hadded

/-- `openDatabase` adds an open connection, or fails with a kind that is not `config` and keeps the
standing. -/
theorem run_openDatabase_cases (path : String) (h : Host) :
    (∃ later, (openDatabase path).run.run h = (.ok h.stores.length, later) ∧
        later.standing = h.standing.opened (some true)) ∨
      ∃ failure later, (openDatabase path).run.run h = (.error failure, later) ∧
        failure.kind ≠ .config ∧ later.standing = h.standing := by
  rw [openDatabase]
  split
  · exact .inr ⟨_, _, rfl, nofun, rfl⟩
  · split
    · exact run_connect_cases (failsOutside_ask _ _) (fun _ => .own Table.empty) h
    · exact run_connect_cases (failsOutside_ensureDatabase _) .file h

end Hosted

def Backend.connection? : Backend → Option Bool
  | memory => none
  | sqlite => some true

theorem Backend.connection?_ne (b : Backend) : b.connection? ≠ some false := by
  cases b <;> exact nofun

namespace RegistrySettings

/-- `openRegistry` adds a store and is over it; or the backend is a database, and it fails with a
kind that is not `config`. -/
theorem run_openRegistry_cases (s : RegistrySettings) (h : Host) :
    (∃ later, s.openRegistry.run.run h = (.ok ⟨h.stores.length, s.keyPrefix⟩, later) ∧
        later.standing = h.standing.opened s.backend.connection?) ∨
      s.backend = .sqlite ∧ ∃ failure later, s.openRegistry.run.run h = (.error failure, later) ∧
        failure.kind ≠ .config ∧ later.standing = h.standing := by
  rw [openRegistry]
  cases s.backend with
  | memory =>
    obtain ⟨later, hrun, hstanding⟩ := Hosted.exists_run_addStore (.memory Memory.empty) h
    exact .inl ⟨later, by simp only [Hosted.openMemory, run_run_bind, hrun]; rfl, hstanding⟩
  | sqlite =>
    rcases Hosted.run_openDatabase_cases s.sqlitePath h with
      ⟨later, hrun, hstanding⟩ | ⟨failure, later, hrun, hkind, hstanding⟩
    · exact .inl ⟨later, by simp only [run_run_bind, hrun]; rfl, hstanding⟩
    · exact .inr ⟨rfl, failure, later, by simp only [run_run_bind, hrun], hkind, hstanding⟩

end RegistrySettings

/-! ## Closing -/

namespace Hosted

theorem exists_run_close (id : StoreId) (h : Host) :
    ∃ later, (close id).run.run h = (.ok (), later) ∧
      later.events = h.events ++ [.closed id] ∧ later.standing = h.standing.closed id := by
  have hset {old new : Store} (hold : h.stores[id]? = some old)
      (hclosed : new.connection? = old.connection?.map fun _ => false) :
      ((h.withStore id new).noted (.closed id)).standing = h.standing.closed id := by
    refine congrArg₂ Standing.mk (List.filter_append _ _) ?_
    simp [Host.noted, Host.withStore, Host.standing, hclosed, List.modify_eq_set, hold]
  simp only [close, run_run_bind, run_run_get]
  rcases hstore : h.stores[id]? with _ | m | ⟨database, isOpen⟩
  · refine ⟨_, rfl, rfl, congrArg₂ Standing.mk (List.filter_append _ _) ?_⟩
    exact (List.modify_eq_self (by simpa [Host.standing, Host.noted] using hstore)).symm
  · exact ⟨_, rfl, rfl, hset hstore rfl⟩
  · exact ⟨_, rfl, rfl, hset hstore rfl⟩

end Hosted

end ChatCommands
