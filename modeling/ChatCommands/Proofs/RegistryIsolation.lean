import ChatCommands.Bundled.Echo
import ChatCommands.Proofs.RegistryCalls
import ChatCommands.Proofs.Views

/-!
# Registries that share a store

Two registries on one store are to answer as if each had the store for itself. Whether they do is a
matter of their prefixes: a key is a prefix, a dot and a name, and names may hold dots. Prefixes are
*apart* when neither followed by a dot begins the other followed by a dot, and
`isolated_iff_apart` says that registries are isolated exactly then.

A call of a registry sees only the view of the registry, which is what the store holds under its own
keys; a call of a registry whose prefix is apart spares that view. By induction on the calls, hosts
with one view give the same answers.
-/

namespace ChatCommands

/-! ## Published entries -/

namespace Entry

theorem ofHash_toHash (e : Entry) : ofHash e.toHash = .ok e := rfl

/-- The order of the fields does not matter to `ofHash`. -/
theorem ofHash_byField (e : Entry) :
    ofHash (OrderedMap.ofList [("description", e.description), ("name", e.name)]) = .ok e := rfl

end Entry

namespace Content

theorem ofHash_of_set {c : Content} {key : String} (hnone : c.get? key = none) (e : Entry)
    {hash : Hash} (h : (c.set key e.toHash).get? key = some hash) : Entry.ofHash hash = .ok e := by
  cases c with
  | memory m =>
    have hnone' : m.get? key = none := hnone
    have hset := Memory.get?_set m key key e.toHash
    rw [if_pos rfl, hnone'] at hset
    cases hset.symm.trans h
    exact e.ofHash_toHash
  | table t =>
    have hrows := t.rows_set key e.toHash
    rw [Table.rows_eq_nil hnone] at hrows
    have hentries : e.toHash.entries = [("name", e.name), ("description", e.description)] := rfl
    -- the rows of a key come in the order of their fields
    have hfield : Text.before "description" "name" = true := by decide
    have hfirst : Row.put ⟨key, "name", e.name⟩ [] = [⟨key, "name", e.name⟩] := rfl
    have hsecond : Row.put ⟨key, "description", e.description⟩ [⟨key, "name", e.name⟩] =
        [⟨key, "description", e.description⟩, ⟨key, "name", e.name⟩] := by
      simp [Row.put, Row.sameSlot, Row.before, hfield]
    rw [hentries] at hrows
    simp only [List.foldl_cons, List.foldl_nil, hfirst, hsecond] at hrows
    have hget : (t.set key e.toHash).get? key =
        some (OrderedMap.ofList [("description", e.description), ("name", e.name)]) := by
      rw [Table.get?, hrows]
      rfl
    cases hget.symm.trans h
    exact e.ofHash_byField
  | nowhere => cases h

end Content

namespace Registry

/-! ## Calls -/

/-- A call of a registry. -/
inductive Call where
  | add (command : Command)
  | get (name : String)
  | list

inductive Answer where
  | added (published : Bool)
  | found (entry : Option Entry)
  | listed (entries : List Entry)

def perform (r : Registry) : Call → Hosted Answer
  | .add command => return .added (← r.addCommand command)
  | .get name => return .found (← r.get name)
  | .list => return .listed (← r.list)

/-- What the keys of a registry begin with. -/
def start (r : Registry) : String := r.keyPrefix ++ "."

/-- Neither `p ++ "."` nor `q ++ "."` begins with the other. -/
def Apart (p q : String) : Prop :=
  hasStart (p ++ ".") (q ++ ".") = false ∧ hasStart (q ++ ".") (p ++ ".") = false

instance (p q : String) : Decidable (Apart p q) := inferInstanceAs (Decidable (_ ∧ _))

theorem hasStart_iff {start key : String} :
    hasStart start key = true ↔ start.toList <+: key.toList := by
  rw [hasStart, Text.startsWith, List.isPrefixOf_iff_prefix]

theorem hasStart_key (r : Registry) (name : String) : hasStart r.start (r.key name) = true := by
  have hkey : r.key name = r.start ++ name := rfl
  rw [hasStart_iff, hkey, String.toList_append]
  exact List.prefix_append _ _

/-- No key of `s` begins like those of `r`, if the prefixes are `Apart`. -/
theorem not_hasStart_key {r s : Registry} (h : Apart r.keyPrefix s.keyPrefix) (name : String) :
    hasStart r.start (s.key name) = false := by
  rw [Bool.eq_false_iff, ne_eq]
  intro hr
  have hs := hasStart_key s name
  rw [hasStart_iff] at hr hs
  -- both starts begin the key, so the shorter begins the longer
  rcases List.prefix_or_prefix_of_prefix hr hs with hrs | hsr
  · exact Bool.false_ne_true (h.1.symm.trans (hasStart_iff.2 hrs))
  · exact Bool.false_ne_true (h.2.symm.trans (hasStart_iff.2 hsr))

/-! ## What a call sees -/

open Hosted (SeesOnly seesOnly_pure seesOnly_throw seesOnly_note seesOnly_bind seesOnly_getHash
  seesOnly_setHash seesOnly_keys Spares)

section
variable (r : Registry)

theorem seesOnly_orInvalid {α : Type} (checked : Checked α) :
    SeesOnly r.start r.store (orInvalid checked) := by
  cases checked with
  | error violations => exact seesOnly_throw _
  | ok a => exact seesOnly_pure a

theorem seesOnly_add (entry : Entry) : SeesOnly r.start r.store (r.add entry) := by
  have hpublished : SeesOnly r.start r.store (r.isPublished entry.name) :=
    seesOnly_bind (seesOnly_getHash (r.hasStart_key entry.name)) fun hash _ _ => seesOnly_pure _
  refine seesOnly_bind hpublished fun published _ _ => ?_
  cases published with
  | true => exact seesOnly_bind (seesOnly_note _) fun _ _ _ => seesOnly_pure _
  | false =>
    exact seesOnly_bind (seesOnly_setHash (r.hasStart_key entry.name) _) fun _ _ _ =>
      seesOnly_bind (seesOnly_note _) fun _ _ _ => seesOnly_pure _

theorem seesOnly_get (name : String) : SeesOnly r.start r.store (r.get name) := by
  refine seesOnly_bind (seesOnly_getHash (r.hasStart_key name)) fun hash _ _ => ?_
  cases hash with
  | none => exact seesOnly_pure _
  | some hash => exact seesOnly_bind (r.seesOnly_orInvalid _) fun _ _ _ => seesOnly_pure _

theorem seesOnly_entriesAt {keys : List String}
    (hkeys : ∀ key ∈ keys, hasStart r.start key = true) :
    SeesOnly r.start r.store (r.entriesAt keys) := by
  induction keys with
  | nil => exact seesOnly_pure _
  | cons key keys ih =>
    have hlater := ih fun other hother => hkeys other (List.mem_cons_of_mem _ hother)
    refine seesOnly_bind (seesOnly_getHash (hkeys key (by simp))) fun hash _ _ => ?_
    cases hash with
    | none => exact hlater
    | some hash =>
      exact seesOnly_bind (r.seesOnly_orInvalid _) fun _ _ _ =>
        seesOnly_bind hlater fun _ _ _ => seesOnly_pure _

theorem hasStart_of_run_keys {h : Host} {keys : List String}
    (hrun : ((Hosted.keys r.store r.start).run.run h).1 = .ok keys) :
    ∀ key ∈ keys, hasStart r.start key = true := by
  cases hserved : h.denied? r.store (.search r.start) with
  | some failure => simp [Hosted.run_keys_of_denied hserved] at hrun
  | none =>
    obtain ⟨c, hopen⟩ := Host.exists_content?_of_denied?_eq_none hserved
    rw [Hosted.run_keys hserved hopen, Except.ok.injEq] at hrun
    subst hrun
    exact fun key hkey => Content.hasStart_of_mem_keys hkey

theorem seesOnly_list : SeesOnly r.start r.store r.list :=
  seesOnly_bind seesOnly_keys fun _ _ hkeys =>
    seesOnly_bind (r.seesOnly_entriesAt (r.hasStart_of_run_keys hkeys)) fun _ _ _ =>
      seesOnly_pure _

/-- `perform` sees only the view at `r.start`. -/
theorem seesOnly_perform (call : Call) : SeesOnly r.start r.store (r.perform call) := by
  cases call with
  | add command => exact seesOnly_bind (r.seesOnly_add _) fun _ _ _ => seesOnly_pure _
  | get name => exact seesOnly_bind (r.seesOnly_get name) fun _ _ _ => seesOnly_pure _
  | list => exact seesOnly_bind r.seesOnly_list fun _ _ _ => seesOnly_pure _

end

section
variable {start : String} {id : StoreId} (r : Registry)

theorem spares_get (name : String) : Spares start id (r.get name) :=
  fun h => congrArg _ (r.get_host name h)

theorem spares_list : Spares start id r.list := fun h => congrArg _ (r.list_host h)

theorem spares_add {entry : Entry} (hkey : hasStart start (r.key entry.name) = false) :
    Spares start id (r.add entry) := by
  intro h
  generalize hrun : (r.add entry).run.run h = ended
  cases (hrun ▸ r.add_ends entry h : AddEnds r entry h ended) with
  | unread => rfl
  | found => rfl
  | unwritten => rfl
  | @written c after _ _ _ hwritten =>
    exact (Hosted.view_of_written hkey hwritten : after.view start id = h.view start id)

/-- `perform` of another registry spares the view of `r`, if the prefixes are `Apart`. -/
theorem spares_perform {other : Registry} (h : Apart other.keyPrefix r.keyPrefix) (call : Call) :
    Spares other.start id (r.perform call) := by
  intro host
  cases call with
  | add command =>
    rw [perform, run_run_bind_pure]
    exact @spares_add _ _ r ⟨command.name, command.help⟩ (not_hasStart_key h command.name) host
  | get name =>
    rw [perform, run_run_bind_pure]
    exact r.spares_get name host
  | list =>
    rw [perform, run_run_bind_pure]
    exact r.spares_list host

end

/-! ## Runs -/

section
variable {ι : Type} (registry : ι → Registry)

/-- The answers to calls of several registries. A call that fails does not end the run. -/
def answers : List (ι × Call) → Host → List (ι × Except Failure Answer)
  | [], _ => []
  | (i, call) :: calls, h =>
    (i, (((registry i).perform call).run.run h).1) ::
      answers calls (((registry i).perform call).run.run h).2

/-- The host after calls of several registries. -/
def after : List (ι × Call) → Host → Host
  | [], h => h
  | (i, call) :: calls, h => after calls (((registry i).perform call).run.run h).2

variable [DecidableEq ι] {registry}

/-- The answers to the calls of registry `i` are those of a run in which the other calls are left
out. -/
theorem answers_of_view_eq {i : ι}
    (hapart : ∀ j, j ≠ i → Apart (registry i).keyPrefix (registry j).keyPrefix)
    (calls : List (ι × Call)) {g h : Host}
    (hview : g.view (registry i).start (registry i).store =
      h.view (registry i).start (registry i).store) :
    (answers registry calls g).filter (·.1 = i) =
      answers registry (calls.filter (·.1 = i)) h := by
  induction calls generalizing g h with
  | nil => rfl
  | cons head calls ih =>
    obtain ⟨j, call⟩ := head
    by_cases hj : j = i
    · -- the same call from two hosts with the same view
      subst hj
      obtain ⟨hanswer, hafter⟩ := (registry j).seesOnly_perform call g h hview
      have hlater := ih hafter
      simp only [answers, List.filter_cons, decide_true, if_true, hanswer, hlater]
    · -- a call that only one of the hosts sees
      have hspared : Spares (registry i).start (registry i).store ((registry j).perform call) :=
        (registry j).spares_perform (hapart j hj) call
      have hlater := ih ((hspared g).trans hview)
      simp only [answers, List.filter_cons, hj, decide_false, Bool.false_eq_true, if_false, hlater]

end

/-! ## Stores of a registry's own entries -/

/-- Every key with the start of `r` is the key of a name, and its hash is an entry of that name. -/
def Owns (r : Registry) (h : Host) : Prop :=
  ∀ c, h.content? r.store = some c → ∀ key hash, hasStart r.start key = true →
    c.get? key = some hash → ∃ e : Entry, key = r.key e.name ∧ Entry.ofHash hash = .ok e

theorem owns_of_empty {r : Registry} {h : Host}
    (hempty : ∀ c, h.content? r.store = some c → ∀ key, c.get? key = none) : Owns r h := by
  intro c hopen key hash _ hget
  rw [hempty c hopen key] at hget
  cases hget

variable {r : Registry} {g h : Host} {c : Content}

theorem owns_of_view_eq (hview : g.view r.start r.store = h.view r.start r.store)
    (howns : Owns r g) : Owns r h := by
  intro d hd key hash hkey hget
  rcases Hosted.content?_of_view_eq hview with ⟨_, hh⟩ | ⟨c, d', hg, hh, hpart⟩
  · simp [hh] at hd
  · obtain rfl : d' = d := Option.some.inj (hh.symm.trans hd)
    have hsame : c.get? key = some hash := by
      rw [← Content.get?_part hkey c, hpart, Content.get?_part hkey d', hget]
    exact howns c hg key hash hkey hsame

theorem owns_of_written (howns : Owns r h) (hopen : h.content? r.store = some c) {entry : Entry}
    (hget : c.get? (r.key entry.name) = none) {after : Host}
    (hwritten : Host.Written r.store (r.key entry.name) entry.toHash h after) : Owns r after := by
  intro d hd key hash hkey hhash
  have hself : after.content? r.store = some (c.set (r.key entry.name) entry.toHash) := by
    rw [hwritten.self, hopen, Option.map_some]
  obtain rfl := Option.some.inj (hself.symm.trans hd)
  by_cases heq : r.key entry.name = key
  · subst heq
    exact ⟨entry, rfl, Content.ofHash_of_set hget entry hhash⟩
  · rw [Content.get?_set_of_ne heq] at hhash
    exact howns c hopen key hash hkey hhash

/-- `add` keeps `Owns`, since it writes nothing but an entry at the key of its name. -/
theorem owns_add (howns : Owns r h) (entry : Entry) : Owns r ((r.add entry).run.run h).2 := by
  generalize hrun : (r.add entry).run.run h = ended
  cases (hrun ▸ r.add_ends entry h : AddEnds r entry h ended) with
  | unread => exact howns
  | found => exact howns
  | unwritten => exact howns
  | written _ hopen hget hwritten =>
    have hafter := owns_of_written howns hopen hget hwritten
    exact hafter

theorem owns_perform (howns : Owns r h) (call : Call) :
    Owns r ((r.perform call).run.run h).2 := by
  cases call with
  | add command =>
    have hafter := owns_add howns ⟨command.name, command.help⟩
    rw [perform, run_run_bind_pure]
    exact hafter
  | get name =>
    rw [perform, run_run_bind_pure]
    exact owns_of_view_eq (r.spares_get name h).symm howns
  | list =>
    rw [perform, run_run_bind_pure]
    exact owns_of_view_eq (r.spares_list h).symm howns

theorem run_get (hopen : h.content? r.store = some c) {name : String} {hash : Hash} {e : Entry}
    (hserved : h.denied? r.store (.read (r.key name)) = none)
    (hget : c.get? (r.key name) = some hash) (hentry : Entry.ofHash hash = .ok e) :
    (r.get name).run.run h = (.ok (some e), h) := by
  simp only [get, run_run_bind, Hosted.run_getHash hserved hopen, hget, hentry, orInvalid,
    run_run_pure]

theorem run_get_of_none (hopen : h.content? r.store = some c) {name : String}
    (hserved : h.denied? r.store (.read (r.key name)) = none) (hget : c.get? (r.key name) = none) :
    (r.get name).run.run h = (.ok none, h) := by
  simp only [get, run_run_bind, Hosted.run_getHash hserved hopen, hget, run_run_pure]

/-- `result` is a failure with which the store of `r` denies some statement. -/
def IsDenied {α : Type} (r : Registry) (h : Host) (result : Except Failure α) : Prop :=
  ∃ statement failure, h.denied? r.store statement = some failure ∧ result = .error (.store failure)

/-- `entriesAt` reads the entries at the given keys, or is denied. -/
theorem run_entriesAt (hopen : h.content? r.store = some c) (howns : Owns r h)
    {keys : List String} (hkeys : ∀ key ∈ keys, hasStart r.start key = true) :
    IsDenied r h ((r.entriesAt keys).run.run h).1 ∨
      ∃ entries, (r.entriesAt keys).run.run h = (.ok entries, h) ∧
        entries.map (fun e => r.key e.name) = keys.filter (fun key => (c.get? key).isSome) ∧
        ∀ e ∈ entries, (r.get e.name).run.run h = (.ok (some e), h) := by
  induction keys with
  | nil => exact .inr ⟨[], rfl, rfl, by simp⟩
  | cons key keys ih =>
    have hlater := ih fun other hother => hkeys other (List.mem_cons_of_mem _ hother)
    cases hserved : h.denied? r.store (.read key) with
    | some failure =>
      refine .inl ⟨_, failure, hserved, ?_⟩
      rw [entriesAt, run_run_bind, Hosted.run_getHash_of_denied hserved]
    | none =>
      cases hget : c.get? key with
      | none =>
        have hrun : (r.entriesAt (key :: keys)).run.run h = (r.entriesAt keys).run.run h := by
          simp only [entriesAt, run_run_bind, Hosted.run_getHash hserved hopen, hget]
        rwa [hrun, List.filter_cons_of_neg (by simp [hget])]
      | some hash =>
        obtain ⟨e, hkey, hentry⟩ := howns c hopen key hash (hkeys key (by simp)) hget
        rcases hlater with ⟨statement, failure, hdenied, hfail⟩ | ⟨entries, hrun, hmap, hentries⟩
        · -- what is denied later ends the listing
          refine .inl ⟨statement, failure, hdenied, ?_⟩
          have hhost := r.entriesAt_host keys h
          rw [entriesAt, run_run_bind, Hosted.run_getHash hserved hopen, hget]
          generalize hrest : (r.entriesAt keys).run.run h = rest at hfail hhost
          obtain ⟨result, after⟩ := rest
          obtain rfl : result = .error (.store failure) := hfail
          simp only [hentry, orInvalid, run_run_bind, run_run_pure, hrest]
        · refine .inr ⟨e :: entries, ?_, ?_, ?_⟩
          · simp only [entriesAt, run_run_bind, Hosted.run_getHash hserved hopen, hget, hentry,
              orInvalid, run_run_pure, hrun]
          · rw [List.map_cons, hmap, ← hkey, List.filter_cons_of_pos (by simp [hget])]
          · intro other hother
            rcases List.mem_cons.1 hother with rfl | hother
            · exact run_get hopen (hkey ▸ hserved) (hkey ▸ hget) hentry
            · exact hentries other hother

/-- `list` reads the entries at the keys that the store lists, or is denied. -/
theorem run_list (howns : Owns r h) :
    IsDenied r h (r.list.run.run h).1 ∨
      ∃ (c : Content) (entries : List Entry), h.content? r.store = some c ∧
        r.list.run.run h =
          (.ok (entries.mergeSort fun a b => !Text.before b.name a.name), h) ∧
        entries.map (fun e => r.key e.name) =
          (c.keys r.start).filter (fun key => (c.get? key).isSome) ∧
        ∀ e ∈ entries, (r.get e.name).run.run h = (.ok (some e), h) := by
  cases hserved : h.denied? r.store (.search r.start) with
  | some failure => exact .inl ⟨_, failure, hserved, congrArg Prod.fst (run_list_of_denied hserved)⟩
  | none =>
    obtain ⟨c, hopen⟩ := Host.exists_content?_of_denied?_eq_none hserved
    have hstarts : ∀ key ∈ c.keys r.start, hasStart r.start key = true :=
      fun key hkey => Content.hasStart_of_mem_keys hkey
    have hkeys : (Hosted.keys r.store (r.keyPrefix ++ ".")).run.run h = (.ok (c.keys r.start), h) :=
      Hosted.run_keys hserved hopen
    rcases run_entriesAt hopen howns hstarts with ⟨statement, failure, hdenied, hfail⟩ |
      ⟨entries, hrun, hmap, hentries⟩
    · refine .inl ⟨statement, failure, hdenied, ?_⟩
      rw [list, run_run_bind, hkeys]
      generalize hrest : (r.entriesAt (c.keys r.start)).run.run h = rest at hfail
      obtain ⟨result, after⟩ := rest
      obtain rfl : result = .error (.store failure) := hfail
      simp only [run_run_bind, hrest]
    · refine .inr ⟨c, entries, hopen, ?_, hmap, hentries⟩
      simp only [list, run_run_bind, hkeys, hrun, run_run_pure]

/-- On a store that it `Owns` a registry lists entries that `get` finds under their names, or is
denied. -/
theorem list_of_owns (howns : Owns r h) :
    IsDenied r h (r.list.run.run h).1 ∨
      ∃ entries, (r.list.run.run h).1 = .ok entries ∧
        ∀ e ∈ entries, ((r.get e.name).run.run h).1 = .ok (some e) := by
  rcases run_list howns with hdenied | ⟨c, entries, -, hrun, -, hentries⟩
  · exact .inl hdenied
  · refine .inr ⟨_, congrArg Prod.fst hrun, fun e he => ?_⟩
    rw [hentries e (List.mem_mergeSort.1 he)]

/-- Calls of registries whose prefixes are `Apart` keep `Owns` of one of them. -/
theorem owns_after {ι : Type} [DecidableEq ι] {registry : ι → Registry} {i : ι}
    (hapart : ∀ j, j ≠ i → Apart (registry i).keyPrefix (registry j).keyPrefix)
    (calls : List (ι × Call)) {h : Host} (howns : Owns (registry i) h) :
    Owns (registry i) (after registry calls h) := by
  induction calls generalizing h with
  | nil => exact howns
  | cons head calls ih =>
    obtain ⟨j, call⟩ := head
    refine ih ?_
    by_cases hj : j = i
    · subst hj
      exact owns_perform howns call
    · exact owns_of_view_eq ((registry j).spares_perform (hapart j hj) call h).symm howns

/-! ## Isolation -/

/-- The registry of either side: with prefix `p` for `true` and `q` for `false`. -/
def pair (store : Bool → StoreId) (p q : String) (side : Bool) : Registry :=
  ⟨store side, if side then p else q⟩

/-- The registries with prefixes `p` and `q` do not notice each other, on one store or on two that
lead to one database, whatever it holds at first and in whatever order they are called. -/
structure Isolated (p q : String) : Prop where
  -- each is answered as if the other had never been used
  answers_eq : ∀ (store : Bool → StoreId) (h : Host) (calls : List (Bool × Call)) (side : Bool),
    (answers (pair store p q) calls h).filter (·.1 = side) =
      answers (pair store p q) (calls.filter (·.1 = side)) h
  -- every entry that is listed is the one found under its name, if at first the store holds
  -- nothing else under the keys of the registry. Listing fails only if the store denies a
  -- statement, being closed or connected to a database that refuses it
  listed_found : ∀ (store : Bool → StoreId) (h : Host) (calls : List (Bool × Call)) (side : Bool),
    Owns (pair store p q side) h →
      let r := pair store p q side
      let now := after (pair store p q) calls h
      IsDenied r now (r.list.run.run now).1 ∨
        ∃ entries, (r.list.run.run now).1 = .ok entries ∧
          ∀ e ∈ entries, ((r.get e.name).run.run now).1 = .ok (some e)

def shared (_ : Bool) : StoreId := 0

def fresh : Host := ⟨FileTree.empty, Refusals.none, [.memory Memory.empty], []⟩

theorem run_perform_get {r : Registry} {h : Host} {name : String} {found : Option Entry}
    (hrun : (r.get name).run.run h = (.ok found, h)) :
    ((r.perform (.get name)).run.run h).1 = .ok (.found found) := by
  simp only [perform, run_run_bind, hrun, run_run_pure]

theorem found_of_key_eq {r s : Registry} (hstore : r.store = 0) (hother : s.store = 0)
    {name : String} (command : Command) (hkey : r.key name = s.key command.name) :
    let now := ((s.perform (.add command)).run.run fresh).2
    (r.get name).run.run now = (.ok (some ⟨command.name, command.help⟩), now) := by
  intro now
  have hnow : now = ((s.addCommand command).run.run fresh).2 :=
    congrArg Prod.snd (run_run_bind_pure _ Answer.added fresh)
  have hserved (statement : Statement) : fresh.denied? s.store statement = none := by
    rw [hother]
    rfl
  have hfresh : fresh.content? s.store = some (.memory Memory.empty) := by rw [hother]; rfl
  clear_value now
  generalize hrun : (s.addCommand command).run.run fresh = ended at hnow
  cases (hrun ▸ s.add_ends ⟨command.name, command.help⟩ fresh : AddEnds s _ fresh ended) with
  | unread hdenied => simp [hserved] at hdenied
  | found _ hopen hget =>
    -- a store that holds nothing has nothing under the name
    obtain rfl := Option.some.inj (hopen.symm.trans hfresh)
    cases hget
  | unwritten _ _ _ hdenied => simp [hserved] at hdenied
  | @written c after _ hopen hget hwritten =>
    subst hnow
    have hcontent := hwritten.self
    rw [hopen, Option.map_some] at hcontent
    have hdenied : after.denied? r.store (.read (r.key name)) = none := by
      rw [hwritten.denied?_eq, hstore, ← hother]
      exact hserved _
    obtain rfl := Option.some.inj (hopen.symm.trans hfresh)
    obtain ⟨hash, hset⟩ : ∃ hash, (Content.set (.memory Memory.empty) (s.key command.name)
        (Entry.toHash ⟨command.name, command.help⟩)).get? (s.key command.name) = some hash :=
      ⟨_, (Memory.get?_set Memory.empty _ _ _).trans (if_pos rfl)⟩
    have hstores : r.store = s.store := hstore.trans hother.symm
    refine run_get (h := after.noted _) ?_ ?_ (hkey ▸ hset) (Content.ofHash_of_set hget _ hset)
    · rw [hstores, hkey]
      exact hcontent
    · exact hdenied

/-- Registries that share a key are not isolated: what one publishes there is found by the other. -/
theorem not_isolated_of_key_eq {p q : String} (side : Bool) {name other : String}
    (hkey : (pair shared p q side).key name = (pair shared p q (!side)).key other) :
    ¬Isolated p q := by
  intro hisolated
  have hfound := found_of_key_eq rfl rfl { Echo.command with name := other } hkey
  have hmissing : ((pair shared p q side).get name).run.run fresh = (.ok none, fresh) :=
    run_get_of_none (c := .memory Memory.empty) rfl rfl rfl
  have heq := hisolated.answers_eq shared fresh
    [(!side, .add { Echo.command with name := other }), (side, .get name)] side
  simp [answers, run_perform_get hfound, run_perform_get hmissing] at heq

theorem key_eq_of_hasStart {p q : String} (h : hasStart (p ++ ".") (q ++ ".") = true) :
    ∃ name, p ++ "." ++ name = q ++ "." ++ "" := by
  obtain ⟨rest, hrest⟩ := hasStart_iff.1 h
  refine ⟨String.ofList rest, String.toList_inj.1 ?_⟩
  rw [String.toList_append, String.toList_ofList, hrest, String.append_empty]

/-- Two registries are isolated exactly if their prefixes are `Apart`. -/
theorem isolated_iff_apart (p q : String) : Isolated p q ↔ Apart p q := by
  constructor
  · -- a start that begins the other gives a key that both registries have
    intro hisolated
    refine ⟨?_, ?_⟩
    · rw [Bool.eq_false_iff]
      intro h
      obtain ⟨name, hkey⟩ := key_eq_of_hasStart h
      exact not_isolated_of_key_eq true hkey hisolated
    · rw [Bool.eq_false_iff]
      intro h
      obtain ⟨name, hkey⟩ := key_eq_of_hasStart h
      exact not_isolated_of_key_eq false hkey hisolated
  · intro hapart
    have hother (store : Bool → StoreId) (side other : Bool) (hne : other ≠ side) :
        Apart (pair store p q side).keyPrefix (pair store p q other).keyPrefix := by
      cases side <;> cases other
      · exact absurd rfl hne
      · exact ⟨hapart.2, hapart.1⟩
      · exact hapart
      · exact absurd rfl hne
    refine ⟨fun store h calls side => ?_, fun store h calls side howns => ?_⟩
    · exact answers_of_view_eq (hother store side) calls rfl
    · exact list_of_owns (owns_after (hother store side) calls howns)

def echoEntry : Entry := ⟨Echo.command.name, Echo.command.help⟩

/-- Side `false` publishes `echo`, and side `true` looks for it. -/
def nestedCalls : List (Bool × Call) :=
  [(false, .add Echo.command), (true, .get "b.echo"), (true, .list), (true, .get "echo")]

/-- A store with the entry of `echo` under the key of another name. -/
def foreign : Host :=
  ⟨FileTree.empty, Refusals.none, [.memory (Memory.empty.set "a.x" echoEntry.toHash)], []⟩

/-- Two ways for a registry to list what it does not find. With prefix `a` it lists the entry that
prefix `a.b` has published, as it is under the key `a.b.echo`, but finds it only by the name
`b.echo`. And the store may hold an entry under a key of another name from the start. -/
theorem answers_of_nested_prefixes :
    (answers (pair shared "a" "a.b") nestedCalls fresh).filter (·.1 = true) =
        [(true, .ok (.found (some echoEntry))), (true, .ok (.listed [echoEntry])),
          (true, .ok (.found none))] ∧
      answers (pair shared "a" "a.b") (nestedCalls.filter (·.1 = true)) fresh =
        [(true, .ok (.found none)), (true, .ok (.listed [])), (true, .ok (.found none))] ∧
      answers (pair shared "a" "b") [(true, .list), (true, .get "echo")] foreign =
        [(true, .ok (.listed [echoEntry])), (true, .ok (.found none))] := by
  have htogether : answers (pair shared "a" "a.b") nestedCalls fresh =
      [(false, .ok (.added true)), (true, .ok (.found (some echoEntry))),
        (true, .ok (.listed ([echoEntry].mergeSort fun a b => !Text.before b.name a.name))),
        (true, .ok (.found none))] := rfl
  have halone : answers (pair shared "a" "a.b") (nestedCalls.filter (·.1 = true)) fresh =
      [(true, .ok (.found none)),
        (true, .ok (.listed ([].mergeSort fun a b => !Text.before b.name a.name))),
        (true, .ok (.found none))] := rfl
  have hforeign : answers (pair shared "a" "b") [(true, .list), (true, .get "echo")] foreign =
      [(true, .ok (.listed ([echoEntry].mergeSort fun a b => !Text.before b.name a.name))),
        (true, .ok (.found none))] := rfl
  rw [htogether, halone, hforeign, List.mergeSort_singleton, List.mergeSort_nil]
  exact ⟨rfl, rfl, rfl⟩

end Registry

end ChatCommands
