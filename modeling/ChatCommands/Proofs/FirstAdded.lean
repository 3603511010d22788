import ChatCommands.Proofs.Reopening
import ChatCommands.Proofs.StoredEntries

/-!
# The first command of a name stays

A registry that starts on an empty store is a catalogue of all that has been added through it: under
each name it has the entry of the first command of that name, and lists these entries in the order
of their names. `faithful_or_denied` says so for every call in the course of a registry's life, in
which the store may be handed to another registry with the same prefix, a file may be closed and
opened again, and databases may refuse statements for a while. A call that is denied changes
nothing, and is no part of what has been added.

What a store holds under the keys of a registry is told by the calls that have been answered
(`Catalogues`). Every call is answered from that, and keeps it.
-/

namespace ChatCommands

namespace Registry

/-! ## What has been added -/

/-- The entry that a call asks to publish. -/
def Call.entry? : Call → Option Entry
  | .add command => some ⟨command.name, command.help⟩
  | _ => none

/-- The entry of the first command named `name` that the calls have added. -/
def firstAdded (past : List Call) (name : String) : Option Entry :=
  (past.filterMap Call.entry?).find? (·.name = name)

theorem name_of_firstAdded {past : List Call} {name : String} {e : Entry}
    (h : firstAdded past name = some e) : e.name = name := by
  simpa using List.find?_some h

/-- Adding a command changes nothing under a name that has an entry. -/
theorem firstAdded_add (past : List Call) (command : Command) (name : String) :
    firstAdded (past ++ [.add command]) name =
      (firstAdded past name).or
        (if command.name = name then some ⟨command.name, command.help⟩ else none) := by
  rw [firstAdded, List.filterMap_append, List.find?_append, firstAdded]
  by_cases h : command.name = name <;> simp [Call.entry?, h]

theorem firstAdded_of_not_add {call : Call} (hcall : call.entry? = none) (past : List Call)
    (name : String) : firstAdded (past ++ [call]) name = firstAdded past name := by
  rw [firstAdded, List.filterMap_append, List.filterMap_cons_none hcall, List.filterMap_nil,
    List.append_nil, firstAdded]

/-! ## Faithful answers -/

/-- What the calls of `past` make the right answer: `add` publishes if the command is the first of
its name, `get` answers `firstAdded`, and `list` answers all such entries in the order of their
names. -/
def Faithful (past : List Call) : Call → Answer → Prop
  | .add command, .added published => published = (firstAdded past command.name).isNone
  | .get name, .found entry => entry = firstAdded past name
  | .list, .listed entries =>
    entries.Pairwise (fun a b => a.name < b.name) ∧
      ∀ e, e ∈ entries ↔ firstAdded past e.name = some e
  | _, _ => False

/-! ## Stores that hold what has been added -/

/-- The registry reads `firstAdded` under every name. -/
def Catalogues (r : Registry) (past : List Call) (c : Content) : Prop :=
  ∀ name, r.entryIn c name = (firstAdded past name).map .ok

variable {r : Registry} {past : List Call} {c : Content} {h : Host}

theorem catalogues_of_empty (hempty : ∀ key, c.get? key = none) : Catalogues r [] c :=
  fun _ => entryIn_eq_none_iff.2 (hempty _)

theorem catalogues_of_not_add {call : Call} (hcall : call.entry? = none)
    (hcatalogues : Catalogues r past c) : Catalogues r (past ++ [call]) c := by
  intro name
  rw [firstAdded_of_not_add hcall, hcatalogues]

theorem catalogues_of_added {command : Command} {e : Entry}
    (hadded : firstAdded past command.name = some e) (hcatalogues : Catalogues r past c) :
    Catalogues r (past ++ [.add command]) c := by
  intro name
  rw [firstAdded_add, hcatalogues]
  by_cases heq : command.name = name
  · rw [← heq, hadded, Option.some_or]
  · rw [if_neg heq, Option.or_none]

theorem catalogues_set (hplace : c.IsPlace) {command : Command}
    (hnew : firstAdded past command.name = none) (hcatalogues : Catalogues r past c) :
    Catalogues r (past ++ [.add command])
      (c.set (r.key command.name) (Entry.toHash ⟨command.name, command.help⟩)) := by
  intro name
  rw [firstAdded_add]
  by_cases heq : command.name = name
  · subst heq
    have hbefore : r.entryIn c command.name = none := by rw [hcatalogues, hnew]; rfl
    rw [hnew, if_pos rfl, Option.none_or]
    exact entryIn_set_self hplace ⟨command.name, command.help⟩ fun _ hsome =>
      absurd (hbefore.symm.trans hsome) nofun
  · rw [entryIn_set_of_ne heq, hcatalogues, if_neg heq, Option.or_none]

/-! ## Looking and listing -/

/-- `get` is denied, or answers `firstAdded`. -/
theorem Catalogues.get_ends (hcatalogues : Catalogues r past c)
    (hopen : h.content? r.store = some c) (name : String) :
    IsDenied r h ((r.get name).run.run h).1 ∨
      (r.get name).run.run h = (.ok (firstAdded past name), h) := by
  cases hserved : h.denied? r.store (.read (r.key name)) with
  | some failure => exact .inl ⟨_, failure, hserved, by rw [run_get_of_denied hserved]⟩
  | none =>
    refine .inr ?_
    rw [run_get_eq hopen hserved, hcatalogues]
    cases firstAdded past name <;> rfl

theorem Catalogues.owns (hcatalogues : Catalogues r past c) (hopen : h.content? r.store = some c) :
    Owns r h := by
  intro d hd key hash hkey hget
  obtain rfl := Option.some.inj (hd.symm.trans hopen)
  obtain ⟨name, rfl⟩ := exists_eq_key hkey
  have hread : some (Entry.ofHash hash) = (firstAdded past name).map .ok := by
    rw [← hcatalogues, entryIn, hget, Option.map_some]
  cases hadded : firstAdded past name with
  | none => rw [hadded] at hread; cases hread
  | some e =>
    rw [hadded] at hread
    exact ⟨e, by rw [name_of_firstAdded hadded], Option.some.inj hread⟩

/-- Whether `a` may stand in front of `b` in the order of names. -/
def byName (a b : Entry) : Bool := !Text.before b.name a.name

theorem byName_iff {a b : Entry} : byName a b = true ↔ a.name ≤ b.name := by
  rw [byName, Text.before, Bool.not_eq_true', decide_eq_false_iff_not, String.not_lt]

theorem pairwise_mergeSort_byName {entries : List Entry}
    (hnodup : (entries.map Entry.name).Nodup) :
    (entries.mergeSort byName).Pairwise fun a b => a.name < b.name := by
  have hsorted : (entries.mergeSort byName).Pairwise fun a b => byName a b = true := by
    refine List.pairwise_mergeSort (fun a b d hab hbd => ?_) (fun a b => ?_) entries
    · rw [byName_iff] at hab hbd ⊢
      exact String.le_trans hab hbd
    · rw [Bool.or_eq_true, byName_iff, byName_iff]
      exact String.le_total a.name b.name
  have hdistinct : (entries.mergeSort byName).Pairwise fun a b => a.name ≠ b.name := by
    rw [← List.pairwise_map, ← List.nodup_iff_pairwise_ne]
    exact ((List.mergeSort_perm entries _).map Entry.name).nodup_iff.2 hnodup
  -- in order and distinct, so each is before the next
  refine (hsorted.and hdistinct).imp fun hab => ?_
  obtain ⟨hab, hne⟩ := hab
  rw [byName_iff] at hab
  exact Decidable.byContradiction fun hlt => hne (String.le_antisymm hab (String.not_lt.1 hlt))

/-- `list` is denied, or answers as `Faithful` asks. -/
theorem Catalogues.list_ends (hnull : '\x00' ∉ r.start.toList) (hcatalogues : Catalogues r past c)
    (hopen : h.content? r.store = some c) :
    IsDenied r h (r.list.run.run h).1 ∨
      ∃ entries, r.list.run.run h = (.ok entries, h) ∧ Faithful past .list (.listed entries) := by
  rcases run_list (hcatalogues.owns hopen) with hdenied | ⟨d, entries, hd, hrun, hmap, hentries⟩
  · exact .inl hdenied
  obtain rfl := Option.some.inj (hd.symm.trans hopen)
  -- what is listed has been found under its name, so it is the first of the name
  have hadded : ∀ e ∈ entries, firstAdded past e.name = some e := by
    intro e he
    rcases hcatalogues.get_ends hopen e.name with ⟨_, failure, -, hfail⟩ | hget
    · rw [hentries e he] at hfail
      cases hfail
    · exact Except.ok.inj (congrArg Prod.fst (hget.symm.trans (hentries e he)))
  have hnodup : (entries.map Entry.name).Nodup := by
    have hkeys : (entries.map fun e => r.key e.name).Nodup :=
      hmap ▸ (d.nodup_keys r.start).filter _
    rw [← Function.comp_def r.key Entry.name, ← List.map_map] at hkeys
    exact List.Pairwise.of_map r.key (fun _ _ hne heq => hne (congrArg r.key heq)) hkeys
  refine .inr ⟨entries.mergeSort byName, hrun, pairwise_mergeSort_byName hnodup, fun e => ?_⟩
  rw [List.mem_mergeSort]
  refine ⟨hadded e, fun hfirst => ?_⟩
  -- the key of the name is listed, and the entry there is the first of the name
  have hget : d.get? (r.key e.name) ≠ none := fun hnone => by
    have hread := hcatalogues e.name
    rw [entryIn_eq_none_iff.2 hnone, hfirst] at hread
    cases hread
  have hmem : r.key e.name ∈ (d.keys r.start).filter fun key => (d.get? key).isSome :=
    List.mem_filter.2 ⟨(d.mem_keys_iff hnull _).2 ⟨r.hasStart_key e.name, hget⟩,
      Option.isSome_iff_ne_none.2 hget⟩
  rw [← hmap] at hmem
  obtain ⟨other, hother, hkey⟩ := List.mem_map.1 hmem
  have hsame := hadded other hother
  rw [key_injective hkey, hfirst] at hsame
  cases hsame
  exact hother

/-! ## Calls -/

/-- The store of the registry is open and `Catalogues` the calls of `past`. -/
def Serves (r : Registry) (past : List Call) (h : Host) : Prop :=
  ∃ c, h.content? r.store = some c ∧ c.IsPlace ∧ Catalogues r past c

/-- What a call leaves as it is on a host. -/
structure Leaves (r : Registry) (h later : Host) : Prop where
  denied?_eq : later.denied? = h.denied?
  refusals_eq : later.refusals = h.refusals
  connectedAt : ∀ {path names}, h.ConnectedAt path r.store names true →
    later.ConnectedAt path r.store names true

theorem Leaves.refl (r : Registry) (h : Host) : Leaves r h h := ⟨rfl, rfl, id⟩

/-- `addCommand` is denied and changes nothing, or publishes a command that is the first of its name
and no other. Either way the store holds `firstAdded`. -/
theorem addCommand_ends (hserves : Serves r past h) (command : Command) :
    (IsDenied r h ((r.addCommand command).run.run h).1 ∧
      ((r.addCommand command).run.run h).2 = h) ∨
    ∃ later, (r.addCommand command).run.run h =
        (.ok (firstAdded past command.name).isNone, later) ∧
      Serves r (past ++ [.add command]) later ∧ Leaves r h later := by
  obtain ⟨c, hopen, hplace, hcatalogues⟩ := hserves
  have hread := hcatalogues command.name
  generalize hrun : (r.addCommand command).run.run h = ended
  cases (hrun ▸ r.add_ends ⟨command.name, command.help⟩ h : AddEnds r _ h ended) with
  | unread hdenied => exact .inl ⟨⟨_, _, hdenied, rfl⟩, rfl⟩
  | unwritten _ _ _ hdenied => exact .inl ⟨⟨_, _, hdenied, rfl⟩, rfl⟩
  | found _ hd hget =>
    obtain rfl := Option.some.inj (hd.symm.trans hopen)
    cases hadded : firstAdded past command.name with
    | none =>
      rw [hadded] at hread
      exact absurd (entryIn_eq_none_iff.1 hread) (by simp [hget])
    | some e =>
      exact .inr ⟨_, rfl, ⟨_, hopen, hplace, catalogues_of_added hadded hcatalogues⟩,
        rfl, rfl, (·.noted _)⟩
  | @written d after _ hd hget hwritten hset =>
    obtain rfl := Option.some.inj (hd.symm.trans hopen)
    cases hadded : firstAdded past command.name with
    | some e =>
      rw [hadded, entryIn_eq_none_iff.2 hget] at hread
      cases hread
    | none =>
      have hcontent : after.content? r.store = some (d.set (r.key command.name)
          (Entry.toHash ⟨command.name, command.help⟩)) := by
        rw [hwritten.self, hopen, Option.map_some]
      exact .inr ⟨_, rfl, ⟨_, hcontent, Content.isPlace_set hplace _ _,
        catalogues_set hplace hadded hcatalogues⟩, hwritten.denied?_eq, hwritten.refusals_eq,
        fun hat => (hat.setHash hset).noted _⟩

theorem serves_of_not_add {call : Call} (hcall : call.entry? = none) (hserves : Serves r past h) :
    Serves r (past ++ [call]) h := by
  obtain ⟨c, hopen, hplace, hcatalogues⟩ := hserves
  exact ⟨c, hopen, hplace, catalogues_of_not_add hcall hcatalogues⟩

/-- How a call of a registry ends. -/
inductive CallEnds (r : Registry) (past : List Call) (h : Host) (call : Call) : Prop
  | denied (hdenied : IsDenied r h ((r.perform call).run.run h).1)
    (hhost : ((r.perform call).run.run h).2 = h)
  | answered (answer : Answer) (later : Host)
    (hrun : (r.perform call).run.run h = (.ok answer, later))
    (hfaithful : Faithful past call answer) (hopen : h.content? r.store ≠ none)
    (hserves : Serves r (past ++ [call]) later) (hleaves : Leaves r h later)

/-- A registry that `Serves` answers a call faithfully and goes on to serve, or is denied. -/
theorem call_ends (hnull : '\x00' ∉ r.start.toList) (hserves : Serves r past h) (call : Call) :
    CallEnds r past h call := by
  obtain ⟨c, hopen, hplace, hcatalogues⟩ := id hserves
  have hsome : h.content? r.store ≠ none := by rw [hopen]; exact nofun
  cases call with
  | get name =>
    have hhost : ((r.perform (.get name)).run.run h).2 = h := by
      rw [perform, run_run_bind_pure]
      exact r.get_host name h
    rcases hcatalogues.get_ends hopen name with ⟨statement, failure, hdenied, hfail⟩ | hrun
    · refine .denied ⟨statement, failure, hdenied, ?_⟩ hhost
      rw [perform, run_run_bind_pure, hfail]
      rfl
    · refine .answered (.found (firstAdded past name)) h ?_ rfl hsome
        (serves_of_not_add rfl hserves) (Leaves.refl r h)
      rw [perform, run_run_bind_pure, hrun]
      rfl
  | list =>
    have hhost : ((r.perform .list).run.run h).2 = h := by
      rw [perform, run_run_bind_pure]
      exact r.list_host h
    rcases hcatalogues.list_ends hnull hopen with ⟨statement, failure, hdenied, hfail⟩ |
      ⟨entries, hrun, hfaithful⟩
    · refine .denied ⟨statement, failure, hdenied, ?_⟩ hhost
      rw [perform, run_run_bind_pure, hfail]
      rfl
    · refine .answered (.listed entries) h ?_ hfaithful hsome (serves_of_not_add rfl hserves)
        (Leaves.refl r h)
      rw [perform, run_run_bind_pure, hrun]
      rfl
  | add command =>
    rcases addCommand_ends hserves command with
      ⟨⟨statement, failure, hdenied, hfail⟩, hhost⟩ | ⟨later, hrun, hlater, hleaves⟩
    · refine .denied ⟨statement, failure, hdenied, ?_⟩ ?_
      · rw [perform, run_run_bind_pure, hfail]
        rfl
      · rw [perform, run_run_bind_pure]
        exact hhost
    · refine .answered (.added (firstAdded past command.name).isNone) later ?_ rfl hsome hlater
        hleaves
      rw [perform, run_run_bind_pure, hrun]
      rfl

theorem call_ends_of_closed (hclosed : h.content? r.store = none) (past : List Call) (call : Call) :
    CallEnds r past h call := by
  have hdenied (statement : Statement) : h.denied? r.store statement = some .closed :=
    Host.denied?_eq_closed_iff.2 hclosed
  cases call with
  | get name =>
    have hrun := run_get_of_denied (hdenied (.read (r.key name)))
    exact .denied ⟨_, _, hdenied .create, by rw [perform, run_run_bind_pure, hrun]; rfl⟩
      (by rw [perform, run_run_bind_pure, hrun])
  | list =>
    have hrun := run_list_of_denied (hdenied (.search r.start))
    exact .denied ⟨_, _, hdenied .create, by rw [perform, run_run_bind_pure, hrun]; rfl⟩
      (by rw [perform, run_run_bind_pure, hrun])
  | add command =>
    have hrun : (r.addCommand command).run.run h = (.error (.store .closed), h) := by
      simp only [addCommand, add, run_run_bind, run_isPublished_of_denied (hdenied _)]
    exact .denied ⟨_, _, hdenied .create, by rw [perform, run_run_bind_pure, hrun]; rfl⟩
      (by rw [perform, run_run_bind_pure, hrun])

/-! ## Lives of a registry -/

/-- A step in the life of a registry. -/
inductive Step where
  | call (call : Call)
  -- go on with another registry on the same store
  | renew
  -- go on with a registry on one more connection to the file
  | connect
  -- close the file, open it again, and go on with a registry on it
  | reopen
  -- from now on the databases refuse other statements than before
  | meanwhile (refusals : Refusals)

def Step.call? : Step → Option Call
  | .call asked => some asked
  | _ => none

/-- Whether a step asks for the file of the store. -/
def Step.needsFile : Step → Bool
  | .connect => true
  | .reopen => true
  | _ => false

/-- Whether a step leaves the `Refusals` as they are. -/
def Step.isCalm : Step → Bool
  | .meanwhile _ => false
  | _ => true

/-- Take a step with the database at `path`; the result is the registry to go on with. -/
def proceed (path : String) (r : Registry) : Step → Hosted Registry
  | .call call => do
    let _ ← r.perform call
    return r
  | .renew => return ⟨r.store, r.keyPrefix⟩
  | .connect => return ⟨← Hosted.openDatabase path, r.keyPrefix⟩
  | .reopen => do
    r.close
    return ⟨← Hosted.openDatabase path, r.keyPrefix⟩
  | .meanwhile refusals => do
    modify fun h => { h with refusals }
    return r

/-- A registry in the course of its life, with the calls that it has answered. -/
structure Life where
  registry : Registry
  answered : List Call
  host : Host

/-- Take a step. After one that fails the life goes on with the registry as it is. -/
def Life.next (path : String) (l : Life) (step : Step) : Life :=
  match (proceed path l.registry step).run.run l.host with
  | (.ok r, host) => ⟨r, l.answered ++ step.call?.toList, host⟩
  | (.error _, host) => { l with host }

def Life.after (path : String) (l : Life) (steps : List Step) : Life :=
  steps.foldl (Life.next path) l

def Life.Serves (l : Life) : Prop := Registry.Serves l.registry l.answered l.host

/-- The file at `path` holds what the life has added. The connection to it may be closed. -/
def Life.Filed (path : String) (l : Life) : Prop :=
  ∃ names isOpen, l.host.ConnectedAt path l.registry.store names isOpen ∧
    Catalogues l.registry l.answered (.table (l.host.tableOf (.file names)))

/-- Nothing is refused on the host, and the store is open. -/
def Life.Calm (l : Life) : Prop :=
  l.host.refusals = Refusals.none ∧ l.host.content? l.registry.store ≠ none

/-- What a step of a life keeps. -/
structure Progress (path : String) (step : Step) (l later : Life) : Prop where
  keyPrefix_eq : later.registry.keyPrefix = l.registry.keyPrefix
  serves : step.needsFile = false → l.Serves → later.Serves
  filed : l.Filed path → later.Filed path
  -- where nothing is refused a call is answered
  calm : step.isCalm → l.Calm → later.Calm ∧ later.answered = l.answered ++ step.call?.toList

variable {path : String} {l : Life}

theorem Life.serves_of_connectedAt {names : List String}
    (hat : l.host.ConnectedAt path l.registry.store names true)
    (hcatalogues : Catalogues l.registry l.answered (.table (l.host.tableOf (.file names)))) :
    l.Serves :=
  ⟨_, hat.content?, trivial, hcatalogues⟩

theorem Life.call_ends (hnull : '\x00' ∉ l.registry.start.toList) (h : l.Serves ∨ l.Filed path)
    (call : Call) : CallEnds l.registry l.answered l.host call := by
  rcases h with hserves | ⟨names, _ | _, hat, hcatalogues⟩
  · exact Registry.call_ends hnull hserves call
  · exact call_ends_of_closed hat.content?_eq_none _ call
  · exact Registry.call_ends hnull (serves_of_connectedAt hat hcatalogues) call

theorem Life.Calm.not_isDenied {α : Type} (hcalm : l.Calm) {result : Except Failure α} :
    ¬IsDenied l.registry l.host result := by
  rintro ⟨statement, failure, hdenied, -⟩
  obtain ⟨c, hopen⟩ := Option.ne_none_iff_exists'.1 hcalm.2
  rw [Host.denied?_eq_none_of_refusals hcalm.1 hopen] at hdenied
  cases hdenied

theorem progress_call (hnull : '\x00' ∉ l.registry.start.toList) (h : l.Serves ∨ l.Filed path)
    (call : Call) : Progress path (.call call) l (l.next path (.call call)) := by
  cases Life.call_ends hnull h call with
  | denied hdenied hhost =>
    -- the life goes on as it was
    obtain ⟨statement, failure, hwhy, hfail⟩ := id hdenied
    have hsame : l.next path (.call call) = l := by
      rw [Life.next, proceed, run_run_bind]
      generalize hrun : (l.registry.perform call).run.run l.host = ended at hfail hhost
      obtain ⟨result, after⟩ := ended
      obtain rfl : result = .error (.store failure) := hfail
      obtain rfl : after = l.host := hhost
      rfl
    rw [hsame]
    exact ⟨rfl, fun _ => id, id, fun _ hcalm => absurd hdenied hcalm.not_isDenied⟩
  | answered answer later hrun hfaithful hsome hserves hleaves =>
    have hnext : l.next path (.call call) = ⟨l.registry, l.answered ++ [call], later⟩ := by
      rw [Life.next, proceed, run_run_bind, hrun]
      rfl
    rw [hnext]
    obtain ⟨c, hopen, -, hcatalogues⟩ := id hserves
    refine ⟨rfl, fun _ _ => hserves, ?_, fun _ hcalm => ⟨⟨?_, ?_⟩, rfl⟩⟩
    · rintro ⟨names, isOpen, hat, -⟩
      cases isOpen with
      | false => exact absurd hat.content?_eq_none hsome
      | true =>
        have hlater := hleaves.connectedAt hat
        refine ⟨names, true, hlater, ?_⟩
        obtain rfl := Option.some.inj (hopen.symm.trans hlater.content?)
        exact hcatalogues
    · exact hleaves.refusals_eq.trans hcalm.1
    · rw [hopen]
      exact nofun

/-- A life whose registry is moved to another connection to its file. -/
theorem Life.Filed.moved {names : List String}
    (hcatalogues : Catalogues l.registry l.answered (.table (l.host.tableOf (.file names))))
    {other : StoreId} {isOpen : Bool} {later : Host}
    (hat : later.ConnectedAt path other names isOpen) (hfiles : later.files = l.host.files) :
    Life.Filed path ⟨⟨other, l.registry.keyPrefix⟩, l.answered, later⟩ := by
  have htable : later.tableOf (.file names) = l.host.tableOf (.file names) := by
    simp only [Host.tableOf, hfiles]
  refine ⟨names, isOpen, hat, ?_⟩
  rw [htable]
  exact hcatalogues

/-- The step opens the file at `path` anew; `closed` is the host on which it does so. What was added
is in the file, and the registry is moved to the new connection unless the database refuses. -/
theorem progress_open {step : Step} {names : List String} {isOpen : Bool} {closed : Host}
    (hneeds : step.needsFile = true) (hcall : step.call? = none)
    (hrun : (proceed path l.registry step).run.run l.host =
      (do return ⟨← Hosted.openDatabase path, l.registry.keyPrefix⟩ :
        Hosted Registry).run.run closed)
    (hcatalogues : Catalogues l.registry l.answered (.table (l.host.tableOf (.file names))))
    (hat : closed.ConnectedAt path l.registry.store names isOpen)
    (hfiles : closed.files = l.host.files)
    (hrefusals : closed.refusals = l.host.refusals) : Progress path step l (l.next path step) := by
  have hanswered : l.answered ++ step.call?.toList = l.answered := by
    rw [hcall, Option.toList_none, List.append_nil]
  rcases Hosted.run_openDatabase hat.not_hasNull hat.not_own hat.leadsTo with
    ⟨refusal, hrefused, hopen⟩ | ⟨-, other, later, hopen, hlater, hsame, hkept⟩
  · have hnext : l.next path step = { l with host := closed } := by
      rw [Life.next, hrun, run_run_bind_pure, hopen]
      rfl
    rw [hnext]
    refine ⟨rfl, fun hno => ?_, fun _ => Life.Filed.moved hcatalogues hat hfiles, fun _ hcalm => ?_⟩
    · rw [hneeds] at hno
      cases hno
    · -- nothing is refused where nothing is refused
      simp [Host.refusal?, hrefusals, hcalm.1, Refusals.none] at hrefused
  · have hnext : l.next path step = ⟨⟨other, l.registry.keyPrefix⟩, l.answered, later⟩ := by
      rw [Life.next, hrun, run_run_bind_pure, hopen]
      exact congrArg (Life.mk _ · later) hanswered
    rw [hnext]
    refine ⟨rfl, fun hno => ?_,
      fun _ => Life.Filed.moved hcatalogues hlater (hsame.trans hfiles), fun _ hcalm => ?_⟩
    · rw [hneeds] at hno
      cases hno
    · refine ⟨⟨hkept.trans (hrefusals.trans hcalm.1), ?_⟩, hanswered.symm⟩
      simp [hlater.content?]

/-- A step keeps what has been added, if there is a file where it asks for one. -/
theorem progress_next (hnull : '\x00' ∉ l.registry.start.toList) (h : l.Serves ∨ l.Filed path)
    (step : Step) (hfile : step.needsFile = true → l.Filed path) :
    Progress path step l (l.next path step) := by
  cases step with
  | call call => exact progress_call hnull h call
  | renew =>
    have hnext : l.next path .renew = l :=
      congrArg (Life.mk l.registry · l.host) (List.append_nil l.answered)
    rw [hnext]
    exact ⟨rfl, fun _ => id, id, fun _ hcalm => ⟨hcalm, (List.append_nil _).symm⟩⟩
  | meanwhile refusals =>
    have hnext : l.next path (.meanwhile refusals) = { l with host := { l.host with refusals } } :=
      congrArg (Life.mk l.registry · { l.host with refusals }) (List.append_nil l.answered)
    rw [hnext]
    refine ⟨rfl, fun _ => id, ?_, nofun⟩
    rintro ⟨names, isOpen, hat, hcatalogues⟩
    exact ⟨names, isOpen, hat.withRefusals refusals, hcatalogues⟩
  | connect =>
    obtain ⟨names, isOpen, hat, hcatalogues⟩ := hfile rfl
    exact progress_open rfl rfl rfl hcatalogues hat rfl rfl
  | reopen =>
    obtain ⟨names, isOpen, hat, hcatalogues⟩ := hfile rfl
    obtain ⟨closed, hclose, hclosed, hfiles, hrefusals⟩ := Hosted.run_close_of_connectedAt hat
    refine progress_open rfl rfl ?_ hcatalogues hclosed hfiles hrefusals
    rw [proceed, close, run_run_bind, hclose]

/-! ## Whole lives -/

/-- The run of `progress_next`: a life that asks for a file only if there is one goes on as it
began. -/
theorem Life.progress_after (steps : List Step) (hnull : '\x00' ∉ l.registry.start.toList)
    (hfile : (∀ step ∈ steps, step.needsFile = false) ∧ l.Serves ∨ l.Filed path) :
    (l.after path steps).registry.keyPrefix = l.registry.keyPrefix ∧
      ((l.after path steps).Serves ∨ (l.after path steps).Filed path) ∧
      ((∀ step ∈ steps, step.isCalm) → l.Calm → (l.after path steps).Calm ∧
        (l.after path steps).answered = l.answered ++ steps.filterMap Step.call?) := by
  induction steps generalizing l with
  | nil =>
    exact ⟨rfl, hfile.imp_left And.right, fun _ hcalm => ⟨hcalm, (List.append_nil _).symm⟩⟩
  | cons step steps ih =>
    have hneeds : step.needsFile = true → l.Filed path := fun hneeds =>
      hfile.resolve_left fun hsteps => by
        rw [hsteps.1 step List.mem_cons_self] at hneeds
        cases hneeds
    have hprogress := progress_next hnull (hfile.imp_left And.right) step hneeds
    have hnull' : '\x00' ∉ (l.next path step).registry.start.toList := by
      rwa [start, hprogress.keyPrefix_eq]
    have hfile' : (∀ step ∈ steps, step.needsFile = false) ∧ (l.next path step).Serves ∨
        (l.next path step).Filed path :=
      hfile.imp (fun hsteps => ⟨fun other hother => hsteps.1 other (List.mem_cons_of_mem _ hother),
        hprogress.serves (hsteps.1 step List.mem_cons_self) hsteps.2⟩) hprogress.filed
    obtain ⟨hpre, hafter, hall⟩ := ih hnull' hfile'
    refine ⟨hpre.trans hprogress.keyPrefix_eq, hafter, fun hcalmSteps hcalm => ?_⟩
    obtain ⟨hnow, hanswered⟩ := hprogress.calm (hcalmSteps step List.mem_cons_self) hcalm
    obtain ⟨hlater, hlast⟩ :=
      hall (fun other hother => hcalmSteps other (List.mem_cons_of_mem _ hother)) hnow
    refine ⟨hlater, hlast.trans ?_⟩
    rw [hanswered, List.append_assoc]
    cases hcall : step.call? with
    | none => rw [List.filterMap_cons_none hcall]; rfl
    | some call => rw [List.filterMap_cons_some hcall]; rfl

/-! ## Registries on an empty store -/

/-- A store that has just been opened and holds nothing. Only a life on a file may ask for the file.
-/
inductive Begins (path : String) (steps : List Step) (id : StoreId) (h : Host) : Prop
  | memory (before : Host) (hrun : Hosted.openMemory.run.run before = (.ok id, h))
    (hsteps : ∀ step ∈ steps, step.needsFile = false)
  -- a database without rows, in a file or of the connection's own
  | database (before : Host) (hrun : (Hosted.openDatabase path).run.run before = (.ok id, h))
    (hempty : h.content? id = some (.table Table.empty))
    (hsteps : (Location.ofText path).text = Hosted.ownDatabase →
      ∀ step ∈ steps, step.needsFile = false)

theorem Begins.exists_content? {steps : List Step} {id : StoreId} {h : Host}
    (hbegins : Begins path steps id h) : ∃ c, h.content? id = some c := by
  cases hbegins with
  | memory before hrun =>
    cases hrun
    exact ⟨.memory Memory.empty, by simp [Host.content?, Host.noted, Host.contentOf]⟩
  | database before hrun hempty => exact ⟨_, hempty⟩

theorem Begins.serves_or_filed {keyPrefix : String} {steps : List Step} {id : StoreId} {h : Host}
    (hbegins : Begins path steps id h) :
    (∀ step ∈ steps, step.needsFile = false) ∧ Life.Serves ⟨⟨id, keyPrefix⟩, [], h⟩ ∨
      Life.Filed path ⟨⟨id, keyPrefix⟩, [], h⟩ := by
  cases hbegins with
  | memory before hrun hsteps =>
    cases hrun
    exact .inl ⟨hsteps, .memory Memory.empty,
      by simp [Host.content?, Host.noted, Host.contentOf], trivial,
      catalogues_of_empty fun _ => rfl⟩
  | database before hrun hempty hsteps =>
    by_cases hown : (Location.ofText path).text = Hosted.ownDatabase
    · exact .inl ⟨hsteps hown, .table Table.empty, hempty, trivial,
        catalogues_of_empty fun _ => rfl⟩
    · obtain ⟨names, hat⟩ := Hosted.exists_connectedAt hown hrun
      have htable := hat.content?.symm.trans hempty
      refine .inr ⟨names, true, hat, ?_⟩
      rw [Content.table.inj (Option.some.inj htable)]
      exact catalogues_of_empty fun _ => rfl

/-- How a registry deals with `call` at the end of the life `l`. -/
structure FaithfulOrDenied (l : Life) (call : Call) : Prop where
  -- the call is answered faithfully to the calls that have been answered before, or the store
  -- denies it and everything is as it was
  answered_or_denied :
    (∃ answer later, (l.registry.perform call).run.run l.host = (.ok answer, later) ∧
      Faithful l.answered call answer) ∨
    IsDenied l.registry l.host ((l.registry.perform call).run.run l.host).1 ∧
      ((l.registry.perform call).run.run l.host).2 = l.host
  answered : l.Calm → ∃ answer later,
    (l.registry.perform call).run.run l.host = (.ok answer, later) ∧ Faithful l.answered call answer

/-- In a life that starts on an empty store every call is answered faithfully to the calls that have
been answered, or denied by the store. If nothing is refused in the whole life, the store is open at
the end and each call is answered. -/
theorem faithful_or_denied {path keyPrefix : String} {steps : List Step} {id : StoreId} {h : Host}
    (hnull : '\x00' ∉ keyPrefix.toList) (hbegins : Begins path steps id h) (call : Call) :
    let l := Life.after path ⟨⟨id, keyPrefix⟩, [], h⟩ steps
    FaithfulOrDenied l call ∧
      (h.refusals = Refusals.none → (∀ step ∈ steps, step.isCalm) →
        l.Calm ∧ l.answered = steps.filterMap Step.call?) := by
  intro l
  have hstart (r : Registry) (hpre : r.keyPrefix = keyPrefix) : '\x00' ∉ r.start.toList := by
    simpa [start, hpre] using hnull
  obtain ⟨hpre, hsound, hall⟩ := Life.progress_after (l := ⟨⟨id, keyPrefix⟩, [], h⟩) steps
    (hstart _ rfl) hbegins.serves_or_filed
  refine ⟨?_, fun hnone hcalmSteps => ?_⟩
  · cases Life.call_ends (hstart _ hpre) hsound call with
    | denied hdenied hhost =>
      exact ⟨.inr ⟨hdenied, hhost⟩, fun hcalm => absurd hdenied hcalm.not_isDenied⟩
    | answered answer later hrun hfaithful _ _ _ =>
      exact ⟨.inl ⟨answer, later, hrun, hfaithful⟩, fun _ => ⟨answer, later, hrun, hfaithful⟩⟩
  · obtain ⟨c, hopen⟩ := hbegins.exists_content?
    exact hall hcalmSteps ⟨hnone, hopen ▸ nofun⟩

def echoLike (name help : String) : Command := { Echo.command with name, help }

/-- The files in which the log of `registry.db` is a directory. -/
def blockedLog : FileTree :=
  (FileTree.empty.put ["registry.db"] (.database Table.empty)).put ["registry.db-wal"] .directory

/-- Two commands of one name and one of another, with the file closed and opened in between, and a
command that is refused. -/
def reopenedLife : List Step :=
  [.call (.add (echoLike "b" "first")), .reopen, .call (.add (echoLike "b" "second")), .connect,
    .meanwhile blockedLog.refusals, .call (.add (echoLike "c" "refused")), .reopen,
    .meanwhile Refusals.none, .reopen, .call (.add (echoLike "a" "third")), .renew]

def freshFile : Host :=
  ((Hosted.openDatabase "registry.db").run.run (Host.start FileTree.empty Refusals.none)).2

theorem begins_of_freshFile (steps : List Step) : Begins "registry.db" steps 0 freshFile := by
  have hfile : (Location.ofText "registry.db").text ≠ Hosted.ownDatabase := by decide
  exact .database (Host.start FileTree.empty Refusals.none) rfl rfl fun hown => absurd hown hfile

/-- The steps of `reopenedLife` between which nothing is refused. -/
def calmLife : List Step := reopenedLife.filter Step.isCalm

theorem faithful_or_denied_of_reopened :
    '\x00' ∉ "p".toList ∧ Begins "registry.db" reopenedLife 0 freshFile ∧
      FaithfulOrDenied (Life.after "registry.db" ⟨⟨0, "p"⟩, [], freshFile⟩ reopenedLife) .list ∧
      freshFile.refusals = Refusals.none ∧ (∀ step ∈ calmLife, step.isCalm) ∧
      (Life.after "registry.db" ⟨⟨0, "p"⟩, [], freshFile⟩ calmLife).Calm ∧
      (Life.after "registry.db" ⟨⟨0, "p"⟩, [], freshFile⟩ calmLife).answered =
        calmLife.filterMap Step.call? := by
  have hnull : '\x00' ∉ "p".toList := by decide
  have hbegins := begins_of_freshFile
  have hcalm : ∀ step ∈ calmLife, step.isCalm := fun _ hstep => (List.mem_filter.1 hstep).2
  obtain ⟨-, hall⟩ := faithful_or_denied hnull (hbegins calmLife) .list
  exact ⟨hnull, hbegins _, (faithful_or_denied hnull (hbegins reopenedLife) .list).1, rfl, hcalm,
    hall rfl hcalm⟩

/-- A directory in the place of the log makes the database refuse, and a call on an empty store
fails. -/
theorem denied_of_blocked_log :
    Begins "registry.db" [.meanwhile blockedLog.refusals] 0 freshFile ∧
      let l := Life.after "registry.db" ⟨⟨0, "p"⟩, [], freshFile⟩ [.meanwhile blockedLog.refusals]
      ((l.registry.perform (.add Echo.command)).run.run l.host).1 =
          .error (.store (.refused (.unable "unable to open database file"))) ∧
        ((l.registry.perform (.get "echo")).run.run l.host).1 =
          .error (.store (.refused (.unable "unable to open database file"))) :=
  ⟨begins_of_freshFile _, rfl, rfl⟩

end Registry

end ChatCommands
