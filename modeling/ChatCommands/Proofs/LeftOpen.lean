import ChatCommands.Proofs.RunningShells

/-!
# Which stores are left open

A run opens at most one store, that of the registry. All that is done with a router keeps its
registry and what is open (`keeps_answer`, `keeps_converse`, `keeps_listCommands`), and the registry
is closed however it ends (`exists_run_closing`). So a store is left open only by a start that fails
once the registry is open, and there exactly when the failure is not one of the settings
(`closes_store_unless_failsLate`).
-/

namespace ChatCommands

/-! ## Working with a router -/

namespace Router

theorem keeps_executeOn (c : Command) (line : String) :
    Keeps Host.standing (executeOn c line) := by
  intro h
  have hevents := c.keeps_execute line ⟨∅, h.events⟩
  simp only [executeOn, run_run_bind, run_run_get]
  cases hrun : (c.execute line).run.run ⟨∅, h.events⟩ with
  | mk result frame =>
    rw [hrun] at hevents
    cases result <;> exact congrArg (Standing.mk · _) hevents

theorem keeps_dispatch (line : String) : Keeps Site.ground (dispatch line) := by
  intro site
  simp only [dispatch, run_run_bind, run_run_get]
  cases request line site.router.routes with
  | none => rfl
  | some answer =>
    obtain ⟨outcome, routes⟩ := answer
    have hexecuted : Keeps Site.ground
        (Routed.lift (outcome >>= Product.toCommand) >>=
          fun c => Routed.onHost (executeOn c line)) :=
      keeps_bind (Routed.keeps_lift _) fun c => Routed.keeps_onHost (keeps_executeOn c line)
    exact hexecuted _

end Router

namespace Registry

theorem keeps_list (r : Registry) : Keeps Host.standing r.list :=
  fun h => congrArg Host.standing (r.list_host h)

end Registry

/-! ## Working with a shell -/

namespace Shell

/-- The registry of a shell's router and the standing of its host. -/
def ground (shell : Shell) : Option Registry × Standing := shell.site.ground

theorem keeps_emit (item : Shown) : Keeps ground (Shelled.emit item) := by
  intro shell
  cases hfault : shell.console.faultOf item with
  | none => rw [Shelled.run_emit hfault]; rfl
  | some detail => rw [Shelled.run_emit_of_fault hfault]

theorem keeps_attempt {α : Type} {work : Routed α} (hwork : Keeps Site.ground work) :
    Keeps ground (Shelled.attempt work) := fun shell => hwork shell.site

theorem keeps_answer (line : String) : Keeps ground (answer line) := by
  refine keeps_bind (keeps_attempt (Router.keeps_dispatch line)) fun result => ?_
  cases result with
  | ok value => exact keeps_bind (keeps_emit _) fun _ => keeps_pure _
  | error failure =>
    simp only
    split
    · exact keeps_bind (keeps_emit _) fun _ => keeps_pure _
    · exact keeps_throw _

theorem keeps_answerAll (lines : List String) : Keeps ground (answerAll lines) := by
  induction lines with
  | nil => exact keeps_emit _
  | cons line lines ih =>
    rw [answerAll]
    simp only
    split
    · exact keeps_emit _
    · split
      · exact keeps_bind (keeps_answer _) fun _ => ih
      · exact ih

theorem keeps_converse (lines : List String) : Keeps ground (converse lines) := by
  refine keeps_bind (fun _ => rfl) fun shell => ?_
  cases shell.site.router.names with
  | error failure => exact keeps_throw failure
  | ok names => exact keeps_bind (keeps_emit _) fun _ => keeps_answerAll lines

theorem keeps_listCommands : Keeps ground listCommands := by
  refine keeps_bind (fun _ => rfl) fun shell => ?_
  cases shell.site.router.registry with
  | none => exact keeps_pure []
  | some registry =>
    refine keeps_bind (keeps_attempt (Routed.keeps_onHost registry.keeps_list)) fun result => ?_
    cases result with
    | error failure => exact keeps_throw failure
    | ok entries => exact keeps_pure _

theorem standing_closing {α : Type} {work : Shelled α} (hwork : Keeps ground work) {shell : Shell}
    {r : Registry} (hregistry : shell.site.router.registry = some r) :
    ((closing work).run.run shell).2.site.host.standing =
      shell.site.host.standing.closed r.store := by
  have hground := hwork shell
  cases hrun : work.run.run shell with
  | mk result after =>
    rw [hrun] at hground
    obtain ⟨hafter, hstanding⟩ := Prod.mk.inj hground
    obtain ⟨later, hclosing, -, hlater⟩ := exists_run_closing hrun (hafter.trans hregistry)
    rw [hclosing, hlater, hstanding]

end Shell

namespace CommandLine

/-- `perform` closes the store of the registry, whatever the task. -/
theorem standing_perform {shell : Shell} {r : Registry}
    (hregistry : shell.site.router.registry = some r) (task : Task) (lines : List String) :
    ((perform task lines).run.run shell).2.site.host.standing =
      shell.site.host.standing.closed r.store := by
  cases task with
  | exec line => exact Shell.standing_closing (Shell.keeps_answer line) hregistry
  | list =>
    rw [perform, run_run_bind, ← Shell.standing_closing Shell.keeps_listCommands hregistry]
    rcases (Shell.closing Shell.listCommands).run.run shell with ⟨failure | rows, after⟩
    · rfl
    · -- the table is shown after the registry has been closed
      have hshown : Keeps Shell.ground (do
          Shelled.emit (.ofCommands rows)
          return ExitCode.success : Shelled ExitCode) :=
        keeps_bind (Shell.keeps_emit _) fun _ => keeps_pure _
      exact congrArg Prod.snd (hshown after)
  | converse =>
    rw [perform, run_run_bind, ← Shell.standing_closing (Shell.keeps_converse lines) hregistry]
    rcases (Shell.closing (Shell.converse lines)).run.run shell with ⟨failure | _, after⟩ <;> rfl

/-! ## Tasks -/

/-- `openRouter` fails after the registry has been opened, and with a kind that is not `config`. -/
def FailsLate (catalogue : Catalogue) (s : Settings) (h : Host) : Prop :=
  ∃ failure later, Settings.TakesUp catalogue s h (.error failure, later) ∧ failure.kind ≠ .config

theorem not_failsLate_of_takesUp {catalogue : Catalogue} {s : Settings} {h : Host}
    {result : Except Failure Unit} {later : Site}
    (htaken : Settings.TakesUp catalogue s h (result, later))
    (hresult : ∀ failure, result = .error failure → failure.kind = .config) :
    ¬ FailsLate catalogue s h := by
  rintro ⟨failure, other, hfails, hkind⟩
  exact hkind (hresult failure (congrArg Prod.fst (htaken.unique hfails)))

/-- How `performAt` leaves the stores. -/
inductive Aftermath (catalogue : Catalogue) (readers : Readers) (location : Location) (h : Host) :
    Standing → Prop
  | unopened : Aftermath catalogue readers location h h.standing
  | closed (s : Settings) (hload : Settings.loadWith readers h.files location = .ok s)
    (hfails : ¬ FailsLate catalogue s h) : Aftermath catalogue readers location h
      ((h.standing.opened s.registry.backend.connection?).closed h.stores.length)
  | leftOpen (s : Settings) (hload : Settings.loadWith readers h.files location = .ok s)
    (hfails : FailsLate catalogue s h) : Aftermath catalogue readers location h
      (h.standing.opened s.registry.backend.connection?)

/-- `performAt` leaves the stores in one of the ways of `Aftermath`. -/
theorem aftermath_performAt (catalogue : Catalogue) (readers : Readers) (console : Console)
    (task : Task) (location : Location) (lines : List String) (h : Host) :
    Aftermath catalogue readers location h
      (performAt catalogue readers console task location lines h).2.standing := by
  cases hload : Settings.loadWith readers h.files location with
  | error failure =>
    have hopen : (openRouter catalogue readers location).run.run h = (.error failure, h) := by
      rw [run_openRouter, hload]
    rw [performAt_of_error hopen]
    exact .unopened
  | ok s =>
    have hopening := s.opening_openRouter catalogue h
    cases hrun : (s.openRouter catalogue).run.run h with
    | mk result later =>
      have hopen : (openRouter catalogue readers location).run.run h = (result, later) := by
        rw [run_openRouter, hload, ← hrun]
      rw [hrun] at hopening
      simp only at hopening
      generalize hstanding : later.standing = standing at hopening
      cases hopening with
      | refused failure _ _ _ =>
        rw [performAt_of_error hopen, hstanding]
        exact .unopened
      | built products site htaken hproducts hnames =>
        -- the task is done, and the registry closed behind it
        rw [performAt_of_ok hopen, standing_perform rfl task lines, hstanding]
        exact .closed s hload (not_failsLate_of_takesUp htaken nofun)
      | closed failure site htaken hkind =>
        rw [performAt_of_error hopen, hstanding]
        refine .closed s hload (not_failsLate_of_takesUp htaken ?_)
        rintro _ ⟨⟩
        exact hkind
      | leftOpen failure site htaken hkind =>
        rw [performAt_of_error hopen, hstanding]
        exact .leftOpen s hload ⟨failure, site, htaken, hkind⟩

/-! ## Runs -/

/-- The run starts with settings that `FailsLate`. -/
def LeavesOpen (catalogue : Catalogue) (machine : Machine) (arguments : List String) : Prop :=
  ∃ i s, Request.read arguments = .invocation i ∧
    Settings.loadWith machine.readers machine.files
      (Location.ofText (i.configPath.getD defaultConfig)) = .ok s ∧
    FailsLate catalogue s (Host.start machine.files machine.refusals)

theorem leavesOpen_iff {catalogue : Catalogue} {machine : Machine} {arguments : List String}
    {i : Invocation} {s : Settings} (hread : Request.read arguments = .invocation i)
    (hload : Settings.loadWith machine.readers machine.files
      (Location.ofText (i.configPath.getD defaultConfig)) = .ok s) :
    LeavesOpen catalogue machine arguments ↔
      FailsLate catalogue s (Host.start machine.files machine.refusals) := by
  refine ⟨?_, fun hfails => ⟨i, s, hread, hload, hfails⟩⟩
  rintro ⟨j, t, hread', hload', hfails⟩
  obtain rfl : i = j := Request.invocation.inj (hread.symm.trans hread')
  obtain rfl : s = t := Except.ok.inj (hload.symm.trans hload')
  exact hfails

/-- A run without a task opens nothing, and any other leaves the stores as `performAt` does. -/
theorem standing_run_cases (catalogue : Catalogue) (machine : Machine) (setup : LogSetup)
    (arguments : List String) (input : String) :
    (run catalogue machine setup arguments input).host.standing = .start ∨
      ∃ i, Request.read arguments = .invocation i ∧
        Aftermath catalogue machine.readers (Location.ofText (i.configPath.getD defaultConfig))
          (Host.start machine.files machine.refusals)
          (run catalogue machine setup arguments input).host.standing := by
  simp only [run]
  cases hread : Request.read arguments with
  | help => exact .inl rfl
  | misuse => exact .inl rfl
  | invocation i =>
    simp only
    split
    · exact .inl rfl
    · split
      · exact .inl rfl
      · exact .inr ⟨i, rfl,
          aftermath_performAt catalogue machine.readers machine.console i.task _ _ _⟩

/-- What becomes of the stores that are opened with the commands of a catalogue. -/
structure Accounts (catalogue : Catalogue) : Prop where
  -- a start that fails once it has opened the registry closes it if the settings are at fault, and
  -- leaves it open if something else is
  of_error : ∀ (s : Settings) (h later : Host) (failure : Failure),
    (s.openRouter catalogue).run.run h = (.error failure, later) → later.standing ≠ h.standing →
      (failure.kind = .config → later.standing =
        (h.standing.opened s.registry.backend.connection?).closed h.stores.length) ∧
      (failure.kind ≠ .config → later.standing =
        h.standing.opened s.registry.backend.connection?)
  -- what fails late is a path, a factory, or the publishing of what a factory has made
  of_failsLate : ∀ (s : Settings) (h : Host), FailsLate catalogue s h →
    ∃ registry failure, Settings.FailsAt catalogue registry s.commands failure ∧
      failure.kind ≠ .config
  -- a run that opens a store opens no other, and closes it once, unless the start of the run fails
  -- late; then it is left open
  of_run : ∀ (machine : Machine) (setup : LogSetup) (arguments : List String) (input : String)
    (id : StoreId), .opened id ∈ (run catalogue machine setup arguments input).host.events →
      ∃ connection, connection ≠ some false ∧
        (¬ LeavesOpen catalogue machine arguments →
          (run catalogue machine setup arguments input).host.standing =
            (Standing.start.opened connection).closed id) ∧
        (LeavesOpen catalogue machine arguments →
          (run catalogue machine setup arguments input).host.standing =
            Standing.start.opened connection)

/-- Every store that a start or a run opens is closed, but for exactly those starts that
`FailsLate`. -/
theorem closes_store_unless_failsLate (catalogue : Catalogue) : Accounts catalogue := by
  refine ⟨fun s h later failure hrun hopened => ?_, ?_,
    fun machine setup arguments input id hid => ?_⟩
  · have hopening := s.opening_openRouter catalogue h
    rw [hrun] at hopening
    simp only at hopening
    generalize hstanding : later.standing = standing at hopening hopened
    cases hopening with
    | refused _ _ _ _ => exact absurd rfl hopened
    | closed _ _ _ hkind => exact ⟨fun _ => rfl, fun hother => absurd hkind hother⟩
    | leftOpen _ _ _ hkind => exact ⟨fun hother => absurd hother hkind, fun _ => rfl⟩
  · rintro s h ⟨failure, later, ⟨registry, opened, -, hrun⟩, hkind⟩
    exact ⟨registry, failure, Settings.failsAt_of_registerAll rfl hrun, hkind⟩
  · have hdealings :
        .opened id ∈ (run catalogue machine setup arguments input).host.standing.dealings :=
      List.mem_filter.2 ⟨hid, rfl⟩
    rcases standing_run_cases catalogue machine setup arguments input with
      hstart | ⟨i, hread, hafter⟩
    · rw [hstart] at hdealings
      cases hdealings
    · generalize (run catalogue machine setup arguments input).host.standing = standing
        at hdealings hafter
      cases hafter with
      | unopened => cases hdealings
      | closed s hload hfails =>
        obtain rfl : id = 0 := by
          simpa [Standing.closed, Standing.opened, Host.standing, Host.start] using hdealings
        rw [leavesOpen_iff hread hload]
        exact ⟨_, s.registry.backend.connection?_ne, fun _ => rfl, fun hlate => absurd hlate hfails⟩
      | leftOpen s hload hfails =>
        obtain rfl : id = 0 := by
          simpa [Standing.opened, Host.standing, Host.start] using hdealings
        rw [leavesOpen_iff hread hload]
        exact ⟨_, s.registry.backend.connection?_ne, fun hnot => absurd hfails hnot, fun _ => rfl⟩

/-! ## A registry left open -/

/-- Settings with a database, whose second command is the abstract `Command`. -/
def unbuildable : String :=
  "commands:\n  - allen.commands.handlers.echo:EchoCommand\n  - allen.commands.command:Command\n" ++
    "registry:\n  backend: sqlite\n  sqlite_path: registry.db\n"

def unbuildableFiles : FileTree :=
  FileTree.empty.put ["c.yaml"] (.file (Iso8601.utf8 unbuildable.toList))

/-- The abstract `Command` cannot be built, and the connection to the database stays open. -/
theorem left_open_of_abstract_command :
    let outcome := run Catalogue.program (.ofFiles unbuildableFiles) .initial
      ["exec", "echo hi", "--config-file", "c.yaml"] ""
    outcome.failure = some .abstractCommand ∧
      .opened 0 ∈ outcome.host.events ∧ .closed 0 ∉ outcome.host.events ∧
      outcome.host.stores = [.connection (.file ["registry.db"]) true] := by
  decide +kernel

example :
    (run Catalogue.program (.ofFiles FileTree.empty) .initial ["exec", "echo hi"]
      "").host.standing = ⟨[.opened 0, .closed 0], [none]⟩ := by
  decide +kernel

end CommandLine

end ChatCommands
