import ChatCommands.Bundled.Echo
import ChatCommands.Proofs.Reopening
import ChatCommands.Proofs.StoredEntries
import Mathlib.Data.List.Infix

/-!
# Publishing at the same time

Registries with one prefix may publish in one database at the same time. To add a command is two
steps of the store, a look and a publishing, and the steps of others may come in between. So two
registries may both find nothing and both publish, and the entry of the first is replaced by that of
the second (`entry_replaced_in_race`).

For every interleaving of the steps, `first_wins_of_uncontended` says what holds nevertheless:
nothing fails but what the database refuses, every look is answered by the entry that was published
last, and under a name for which no two registries are ever between their two steps at the same
time, the first command that is published stays.
-/

namespace ChatCommands

namespace Registry

/-! ## The two steps of adding -/

/-- The first step of `add`: look whether something is published under the name, and note it if so.
-/
def look (r : Registry) (entry : Entry) : Hosted Bool := do
  if ← r.isPublished entry.name then
    Hosted.note (.alreadyPublished entry.name)
    return true
  else
    return false

/-- The second step of `add`, if nothing has been found. -/
def finish (r : Registry) (entry : Entry) : Hosted Unit := do
  r.publish entry
  Hosted.note (.published entry.name)

/-- `add` is `look`, and then `finish` if nothing has been found. -/
theorem add_eq_look_finish (r : Registry) (entry : Entry) :
    r.add entry = do
      if ← r.look entry then
        return false
      else
        r.finish entry
        return true := by
  rw [add, look, finish, bind_assoc]
  refine bind_congr fun published => ?_
  cases published <;> simp

variable {r : Registry} {c : Content} {h : Host}

theorem run_look_of_none (hopen : h.content? r.store = some c) {entry : Entry}
    (hserved : h.denied? r.store (.read (r.key entry.name)) = none)
    (hnone : r.entryIn c entry.name = none) : (r.look entry).run.run h = (.ok false, h) := by
  have hget := entryIn_eq_none_iff.1 hnone
  simp only [look, run_run_bind, run_isPublished hopen hserved, hget, run_run_pure,
    Option.isSome_none, Bool.false_eq_true, if_false]

theorem run_look_of_some (hopen : h.content? r.store = some c) {entry : Entry}
    (hserved : h.denied? r.store (.read (r.key entry.name)) = none)
    {checked : Checked Entry} (hsome : r.entryIn c entry.name = some checked) :
    (r.look entry).run.run h = (.ok true, h.noted (.alreadyPublished entry.name)) := by
  obtain ⟨hash, hget, -⟩ := Option.map_eq_some_iff.1 hsome
  simp only [look, run_run_bind, run_isPublished hopen hserved, hget, run_run_pure,
    Option.isSome_some, if_true, Hosted.run_note]

theorem run_look_of_denied {entry : Entry} {failure : StoreFailure}
    (hdenied : h.denied? r.store (.read (r.key entry.name)) = some failure) :
    (r.look entry).run.run h = (.error (.store failure), h) := by
  simp only [look, run_run_bind, run_isPublished_of_denied hdenied]

theorem run_finish {names : List String}
    (hstore : h.stores[r.store]? = some (.connection (.file names) true)) {entry : Entry}
    (hserved : h.denied? r.store (.write (r.key entry.name) entry.toHash) = none) :
    (r.finish entry).run.run h =
      (.ok (),
        (h.withHash names (r.key entry.name) entry.toHash).noted (.published entry.name)) := by
  simp only [finish, publish, run_run_bind, Host.run_setHash_of_file hstore hserved,
    Hosted.run_note]

theorem run_finish_of_denied {entry : Entry} {failure : StoreFailure}
    (hdenied : h.denied? r.store (.write (r.key entry.name) entry.toHash) = some failure) :
    (r.finish entry).run.run h = (.error (.store failure), h) := by
  simp only [finish, publish, run_run_bind, Hosted.run_setHash_of_denied hdenied]

end Registry

namespace Race

/-! ## Clients -/

inductive Request where
  | add (command : Command)
  | get (name : String)

/-- What comes of a step of a client. -/
inductive Outcome where
  -- to add a command has not published it, as something is published under the name
  | declined (name : String)
  -- to add a command has found nothing under the name, and is to publish the entry
  | began (entry : Entry)
  | published (entry : Entry)
  | found (name : String) (entry : Option Entry)
  | failed (failure : Failure)

/-- A client with a registry of its own. -/
structure Client where
  store : StoreId
  -- the entry that is to be published next, if the client is between the two steps of adding
  adding : Option Entry
  todo : List Request

/-- Clients at work on one host, with what has come of their steps. -/
structure State (ι : Type) where
  host : Host
  clients : ι → Client
  trace : List (ι × Outcome)

section
variable {ι : Type} [DecidableEq ι] (keyPrefix : String)

/-- A step that leaves `host` and `client`, and comes to `outcome`. -/
def State.advance (s : State ι) (i : ι) (host : Host) (client : Client) (outcome : Outcome) :
    State ι :=
  ⟨host, Function.update s.clients i client, s.trace ++ [(i, outcome)]⟩

theorem clients_advance_self (s : State ι) (i : ι) (host : Host) (client : Client)
    (outcome : Outcome) : (s.advance i host client outcome).clients i = client :=
  Function.update_self ..

theorem clients_advance_of_ne {i j : ι} (hne : j ≠ i) (s : State ι) (host : Host) (client : Client)
    (outcome : Outcome) : (s.advance i host client outcome).clients j = s.clients j :=
  Function.update_of_ne hne ..

/-- The next step of client `i`: `finish` what it has begun to add, or begin what it asks for next.
-/
def turn (s : State ι) (i : ι) : State ι :=
  let client := s.clients i
  let r : Registry := ⟨client.store, keyPrefix⟩
  match client.adding, client.todo with
  | some e, _ =>
    match (r.finish e).run.run s.host with
    | (.ok (), host) => s.advance i host { client with adding := none } (.published e)
    | (.error failure, host) => s.advance i host { client with adding := none } (.failed failure)
  | none, .add command :: todo =>
    let e : Entry := ⟨command.name, command.help⟩
    match (r.look e).run.run s.host with
    | (.ok true, host) => s.advance i host { client with todo } (.declined e.name)
    | (.ok false, host) => s.advance i host { client with adding := some e, todo } (.began e)
    | (.error failure, host) => s.advance i host { client with todo } (.failed failure)
  | none, .get name :: todo =>
    match (r.get name).run.run s.host with
    | (.ok entry, host) => s.advance i host { client with todo } (.found name entry)
    | (.error failure, host) => s.advance i host { client with todo } (.failed failure)
  | none, [] => s

/-- Steps of the clients in the given order of turns. -/
def run (s : State ι) (order : List ι) : State ι := order.foldl (turn keyPrefix) s

end

/-! ## What is published -/

/-- What is published under each name after an outcome. -/
def Outcome.apply (now : String → Option Entry) : Outcome → String → Option Entry
  | .published e => Function.update now e.name (some e)
  | _ => now

/-- What is published under each name after the outcomes of `trace`: the entry published last. -/
def current {ι : Type} (start : String → Option Entry) (trace : List (ι × Outcome)) :
    String → Option Entry :=
  trace.foldl (fun now outcome => outcome.2.apply now) start

/-- The outcome is right when `now` is published: what is found is what `now` tells, and a failure
is a refusal of the database. -/
def Outcome.IsRight (refusal? : Statement → Option Refusal) (now : String → Option Entry) :
    Outcome → Prop
  | .declined name => now name ≠ none
  | .began e => now e.name = none
  | .published _ => True
  | .found name entry => entry = now name
  | .failed failure =>
    ∃ statement refusal, refusal? statement = some refusal ∧ failure = .store (.refused refusal)

section
variable {ι : Type} {start : String → Option Entry} {trace : List (ι × Outcome)} {name : String}

theorem current_append_singleton (start : String → Option Entry) (trace : List (ι × Outcome))
    (i : ι) (outcome : Outcome) :
    current start (trace ++ [(i, outcome)]) = outcome.apply (current start trace) := by
  rw [current, List.foldl_append]
  rfl

/-- `condition` holds of every outcome and what was published at its time. -/
def Throughout (condition : (String → Option Entry) → Outcome → Prop)
    (start : String → Option Entry) (trace : List (ι × Outcome)) : Prop :=
  ∀ earlier i outcome later, trace = earlier ++ (i, outcome) :: later →
    condition (current start earlier) outcome

variable {condition : (String → Option Entry) → Outcome → Prop}

theorem throughout_nil (condition : (String → Option Entry) → Outcome → Prop)
    (start : String → Option Entry) : Throughout condition start ([] : List (ι × Outcome)) := by
  intro earlier i outcome later heq
  simp at heq

theorem throughout_append_singleton (hearlier : Throughout condition start trace) {i : ι}
    {outcome : Outcome} (hlast : condition (current start trace) outcome) :
    Throughout condition start (trace ++ [(i, outcome)]) := by
  intro earlier j other later heq
  -- the outcome is the last one, or one of those before
  cases later using List.reverseRecOn with
  | nil =>
    obtain ⟨rfl, hsame⟩ := List.append_inj' heq rfl
    cases hsame
    exact hlast
  | append_singleton later last =>
    rw [← List.cons_append, ← List.append_assoc] at heq
    exact hearlier earlier j other later (List.append_inj' heq rfl).1

theorem throughout_of_append {later : List (ι × Outcome)}
    (h : Throughout condition start (trace ++ later)) : Throughout condition start trace := by
  intro earlier i outcome rest heq
  refine h earlier i outcome (rest ++ later) ?_
  rw [heq, List.append_assoc, List.cons_append]

end

/-! ## The first that is published -/

def Outcome.publishes (name : String) : Outcome → Bool
  | .published e => e.name = name
  | _ => false

/-- An outcome that publishes under `name` does so only where nothing is. -/
def Outcome.IsFirst (name : String) (now : String → Option Entry) (outcome : Outcome) : Prop :=
  outcome.publishes name = true → now name = none

/-- The first command that is published under `name` stays. -/
structure FirstWins {ι : Type} (start : String → Option Entry) (name : String)
    (trace : List (ι × Outcome)) : Prop where
  once : (trace.filter fun outcome => outcome.2.publishes name).length ≤ 1
  -- its entry is the one that is there in the end
  stored : ∀ i e, (i, .published e) ∈ trace → e.name = name → current start trace name = some e
  -- an entry that has been found is the one that is found ever after
  stable : ∀ earlier i e between j found later, trace =
    earlier ++ (i, .found name (some e)) :: (between ++ (j, .found name found) :: later) →
      found = some e

section
variable {ι : Type} {start : String → Option Entry} {trace : List (ι × Outcome)} {name : String}

theorem apply_of_not_publishes {outcome : Outcome} (h : outcome.publishes name = false)
    (now : String → Option Entry) : outcome.apply now name = now name := by
  cases outcome with
  | published e => exact Function.update_of_ne (by simpa [Outcome.publishes, eq_comm] using h) _ _
  | _ => rfl

/-- If later entries are published only where nothing is, an entry that is there stays. -/
theorem current_append_of_isFirst {later : List (ι × Outcome)} {e : Entry}
    (hfirst : Throughout (Outcome.IsFirst name) start (trace ++ later))
    (hsome : current start trace name = some e) :
    current start (trace ++ later) name = some e := by
  induction later using List.reverseRecOn with
  | nil => rwa [List.append_nil]
  | append_singleton later last ih =>
    rw [← List.append_assoc] at hfirst ⊢
    have hlast := ih (throughout_of_append hfirst)
    have hnot : last.2.publishes name = false := by
      rw [Bool.eq_false_iff]
      intro hpublishes
      have hnone := hfirst (trace ++ later) last.1 last.2 [] rfl hpublishes
      rw [hlast] at hnone
      cases hnone
    rw [current_append_singleton, apply_of_not_publishes hnot, hlast]

theorem current_published {i : ι} {e : Entry} {later : List (ι × Outcome)}
    (hfirst : Throughout (Outcome.IsFirst e.name) start (trace ++ (i, .published e) :: later)) :
    current start (trace ++ (i, .published e) :: later) e.name = some e := by
  have hnow : current start (trace ++ [(i, .published e)]) e.name = some e := by
    rw [current_append_singleton]
    exact Function.update_self ..
  have happend : trace ++ (i, .published e) :: later = trace ++ [(i, .published e)] ++ later := by
    simp
  rw [happend] at hfirst ⊢
  exact current_append_of_isFirst hfirst hnow

theorem current_of_mem {i : ι} {e : Entry} (hmem : (i, .published e) ∈ trace)
    (hfirst : Throughout (Outcome.IsFirst e.name) start trace) :
    current start trace e.name = some e := by
  obtain ⟨earlier, later, rfl⟩ := List.append_of_mem hmem
  exact current_published hfirst

theorem length_publishes_le (hfirst : Throughout (Outcome.IsFirst name) start trace) :
    (trace.filter fun outcome => outcome.2.publishes name).length ≤ 1 := by
  induction trace using List.reverseRecOn with
  | nil => simp
  | append_singleton earlier last ih =>
    have hearlier := throughout_of_append hfirst
    cases hlast : last.2.publishes name with
    | false => simpa [List.filter_append, hlast] using ih hearlier
    | true =>
      -- nothing has been published before, so the last is the only one
      have hnone : current start earlier name = none := hfirst earlier last.1 last.2 [] rfl hlast
      have hnil : earlier.filter (fun outcome => outcome.2.publishes name) = [] := by
        rw [List.filter_eq_nil_iff]
        rintro ⟨i, outcome⟩ hmem hpublishes
        cases outcome with
        | published e =>
          obtain rfl : e.name = name := by simpa [Outcome.publishes] using hpublishes
          rw [current_of_mem hmem hearlier] at hnone
          cases hnone
        | _ => cases hpublishes
      rw [List.filter_append, hnil, List.nil_append]
      exact List.length_filter_le _ [last]

theorem firstWins_of_isFirst {refusal? : Statement → Option Refusal}
    (hright : Throughout (Outcome.IsRight refusal?) start trace)
    (hfirst : Throughout (Outcome.IsFirst name) start trace) : FirstWins start name trace := by
  have hstored : ∀ i e, (i, .published e) ∈ trace → e.name = name →
      current start trace name = some e := by
    rintro i e hmem rfl
    exact current_of_mem hmem hfirst
  refine ⟨length_publishes_le hfirst, hstored, fun earlier i e between j found later heq => ?_⟩
  -- what was found first was published then, and it still is when the name is looked up again
  have hearlier : some e = current start earlier name := hright earlier i _ _ heq
  have hwhole : trace = (earlier ++ (i, .found name (some e)) :: between) ++
      (j, .found name found) :: later := by
    rw [heq, List.append_assoc, List.cons_append]
  have hfound : found = current start (earlier ++ (i, .found name (some e)) :: between) name :=
    hright _ j _ later hwhole
  rw [hwhole] at hfirst
  rw [hfound]
  exact current_append_of_isFirst (throughout_of_append hfirst) hearlier.symm

end

/-! ## What the clients find -/

section
variable {ι : Type} {keyPrefix : String} {names : List String} {start : String → Option Entry}
  {refusal? : Statement → Option Refusal} {s : State ι}

/-- The clients are connected to one file, read `current` under every name, and all outcomes are
right. -/
structure Sound (keyPrefix : String) (names : List String) (refusal? : Statement → Option Refusal)
    (start : String → Option Entry) (s : State ι) : Prop where
  store_eq : ∀ i, s.host.stores[(s.clients i).store]? = some (.connection (.file names) true)
  ne_nil : names ≠ []
  refusal?_eq : s.host.refusal? (.file names) = refusal?
  -- under every name there is what was published last
  entryIn_eq : ∀ id name, Registry.entryIn ⟨id, keyPrefix⟩ (.table (s.host.tableOf (.file names)))
    name = (current start s.trace name).map .ok
  isRight : Throughout (Outcome.IsRight refusal?) start s.trace

theorem Sound.content? (hsound : Sound keyPrefix names refusal? start s) (i : ι) :
    s.host.content? (s.clients i).store = some (.table (s.host.tableOf (.file names))) :=
  Host.content?_of_file hsound.ne_nil (hsound.store_eq i)

theorem Sound.denied? (hsound : Sound keyPrefix names refusal? start s) (i : ι)
    (statement : Statement) :
    s.host.denied? (s.clients i).store statement = (refusal? statement).map .refused := by
  rw [Host.denied?_of_file (hsound.store_eq i), hsound.refusal?_eq]

theorem Sound.denied?_eq_none (hsound : Sound keyPrefix names refusal? start s) (i : ι)
    {statement : Statement} (hnone : refusal? statement = none) :
    s.host.denied? (s.clients i).store statement = none := by
  rw [hsound.denied? i, hnone]
  rfl

theorem Sound.denied?_eq_some (hsound : Sound keyPrefix names refusal? start s) (i : ι)
    {statement : Statement} {refusal : Refusal} (hsome : refusal? statement = some refusal) :
    s.host.denied? (s.clients i).store statement = some (.refused refusal) := by
  rw [hsound.denied? i, hsome]
  rfl

/-- `get` answers `current`, unless the database refuses. -/
theorem Sound.run_get (hsound : Sound keyPrefix names refusal? start s) (i : ι) (name : String) :
    let r : Registry := ⟨(s.clients i).store, keyPrefix⟩
    (r.get name).run.run s.host =
      match refusal? (.read (r.key name)) with
      | none => (.ok (current start s.trace name), s.host)
      | some refusal => (.error (.store (.refused refusal)), s.host) := by
  intro r
  cases hrefusal : refusal? (.read (r.key name)) with
  | some refusal => exact Registry.run_get_of_denied (hsound.denied?_eq_some i hrefusal)
  | none =>
    rw [Registry.run_get_eq (hsound.content? i) (hsound.denied?_eq_none i hrefusal),
      hsound.entryIn_eq]
    cases current start s.trace name <;> rfl

variable [DecidableEq ι]

/-- A step that leaves `current` of the longer trace in the file keeps `Sound`. -/
theorem Sound.advance (hsound : Sound keyPrefix names refusal? start s) {i : ι} {host : Host}
    (hstores : host.stores = s.host.stores) (hrefusals : host.refusals = s.host.refusals)
    {client : Client}
    (hclient : client.store = (s.clients i).store) {outcome : Outcome}
    (hread : ∀ id name,
      Registry.entryIn ⟨id, keyPrefix⟩ (.table (host.tableOf (.file names))) name =
        (outcome.apply (current start s.trace) name).map .ok)
    (hright : outcome.IsRight refusal? (current start s.trace)) :
    Sound keyPrefix names refusal? start (s.advance i host client outcome) := by
  refine ⟨fun j => ?_, hsound.ne_nil, ?_, fun id name => ?_,
    throughout_append_singleton hsound.isRight hright⟩
  · -- the clients are connected as they were
    show host.stores[_]? = _
    rw [hstores]
    by_cases hj : j = i
    · subst hj
      rw [clients_advance_self, hclient]
      exact hsound.store_eq j
    · rw [clients_advance_of_ne hj]
      exact hsound.store_eq j
  · rw [← hsound.refusal?_eq]
    funext statement
    simp only [State.advance, Host.refusal?, hrefusals]
  · rw [State.advance, current_append_singleton]
    exact hread id name

/-- How a turn of client `i` ends. -/
inductive TurnEnds (keyPrefix : String) (names : List String)
    (refusal? : Statement → Option Refusal) (start : String → Option Entry) (s : State ι) (i : ι) :
    State ι → Prop
  | published {e : Entry} (hadding : (s.clients i).adding = some e) :
    TurnEnds keyPrefix names refusal? start s i
      (s.advance i ((s.host.withHash names (Registry.key ⟨(s.clients i).store, keyPrefix⟩ e.name)
          e.toHash).noted (.published e.name))
        { s.clients i with adding := none } (.published e))
  | began {e : Entry} {todo : List Request} (hcurrent : current start s.trace e.name = none) :
    TurnEnds keyPrefix names refusal? start s i
      (s.advance i s.host ⟨(s.clients i).store, some e, todo⟩ (.began e))
  | declined {name : String} {todo : List Request}
    (hcurrent : current start s.trace name ≠ none) :
    TurnEnds keyPrefix names refusal? start s i
      (s.advance i (s.host.noted (.alreadyPublished name)) ⟨(s.clients i).store, none, todo⟩
        (.declined name))
  | found {name : String} {todo : List Request} :
    TurnEnds keyPrefix names refusal? start s i
      (s.advance i s.host ⟨(s.clients i).store, none, todo⟩
        (.found name (current start s.trace name)))
  | failed {statement : Statement} {refusal : Refusal} {todo : List Request}
    (hrefused : refusal? statement = some refusal) :
    TurnEnds keyPrefix names refusal? start s i
      (s.advance i s.host ⟨(s.clients i).store, none, todo⟩ (.failed (.store (.refused refusal))))
  | idle : TurnEnds keyPrefix names refusal? start s i s

theorem Sound.turnEnds_of_adding (hsound : Sound keyPrefix names refusal? start s) {i : ι}
    {e : Entry} (hadding : (s.clients i).adding = some e) :
    TurnEnds keyPrefix names refusal? start s i (turn keyPrefix s i) := by
  -- publishing writes the entry, whatever has happened since the look
  cases hwrite : refusal? (.write (Registry.key ⟨(s.clients i).store, keyPrefix⟩ e.name)
      e.toHash) with
  | some refusal =>
    have hfinish := Registry.run_finish_of_denied (r := ⟨(s.clients i).store, keyPrefix⟩)
      (hsound.denied?_eq_some i hwrite)
    simp only [turn, hadding, hfinish]
    exact .failed hwrite
  | none =>
    have hfinish := Registry.run_finish (r := ⟨(s.clients i).store, keyPrefix⟩)
      (hsound.store_eq i) (hsound.denied?_eq_none i hwrite)
    simp only [turn, hadding, hfinish]
    exact .published hadding

theorem Sound.turnEnds_get (hsound : Sound keyPrefix names refusal? start s) {i : ι}
    (hadding : (s.clients i).adding = none) {name : String} {todo : List Request}
    (htodo : (s.clients i).todo = .get name :: todo) :
    TurnEnds keyPrefix names refusal? start s i (turn keyPrefix s i) := by
  have hget := hsound.run_get i name
  cases hlook : refusal? (.read (Registry.key ⟨(s.clients i).store, keyPrefix⟩ name)) with
  | some refusal =>
    simp only [turn, hadding, htodo, hget, hlook]
    exact .failed hlook
  | none =>
    simp only [turn, hadding, htodo, hget, hlook]
    exact .found

theorem Sound.turnEnds_add (hsound : Sound keyPrefix names refusal? start s) {i : ι}
    (hadding : (s.clients i).adding = none) {command : Command} {todo : List Request}
    (htodo : (s.clients i).todo = .add command :: todo) :
    TurnEnds keyPrefix names refusal? start s i (turn keyPrefix s i) := by
  have hread := hsound.entryIn_eq (s.clients i).store command.name
  cases hrefusal : refusal? (.read (Registry.key ⟨(s.clients i).store, keyPrefix⟩
      command.name)) with
  | some refusal =>
    have hlook : (Registry.look ⟨(s.clients i).store, keyPrefix⟩
        ⟨command.name, command.help⟩).run.run s.host = (.error (.store _), s.host) :=
      Registry.run_look_of_denied (hsound.denied?_eq_some i hrefusal)
    simp only [turn, hadding, htodo, hlook]
    exact .failed hrefusal
  | none =>
    have hserved := hsound.denied?_eq_none i hrefusal
    -- the look finds something exactly if something has been published
    cases hcurrent : current start s.trace command.name with
    | none =>
      rw [hcurrent] at hread
      have hlook : (Registry.look ⟨(s.clients i).store, keyPrefix⟩
          ⟨command.name, command.help⟩).run.run s.host = (.ok false, s.host) :=
        Registry.run_look_of_none (hsound.content? i) hserved hread
      simp only [turn, hadding, htodo, hlook]
      exact .began hcurrent
    | some e =>
      rw [hcurrent] at hread
      have hlook : (Registry.look ⟨(s.clients i).store, keyPrefix⟩
          ⟨command.name, command.help⟩).run.run s.host =
            (.ok true, s.host.noted (.alreadyPublished command.name)) :=
        Registry.run_look_of_some (hsound.content? i) hserved hread
      have hsome : current start s.trace command.name ≠ none := by simp [hcurrent]
      simp only [turn, hadding, htodo, hlook]
      exact .declined hsome

theorem Sound.turnEnds (hsound : Sound keyPrefix names refusal? start s) (i : ι) :
    TurnEnds keyPrefix names refusal? start s i (turn keyPrefix s i) := by
  cases hadding : (s.clients i).adding with
  | some e => exact hsound.turnEnds_of_adding hadding
  | none =>
    cases htodo : (s.clients i).todo with
    | nil =>
      simp only [turn, hadding, htodo]
      exact .idle
    | cons request todo =>
      cases request with
      | add command => exact hsound.turnEnds_add hadding htodo
      | get name => exact hsound.turnEnds_get hadding htodo

omit [DecidableEq ι] in
theorem Sound.entryIn_withHash (hsound : Sound keyPrefix names refusal? start s)
    (store id : StoreId) (e : Entry) (name : String) :
    Registry.entryIn ⟨id, keyPrefix⟩ (.table ((s.host.withHash names
        (Registry.key ⟨store, keyPrefix⟩ e.name) e.toHash).tableOf (.file names))) name =
      (Function.update (current start s.trace) e.name (some e) name).map .ok := by
  have htable := Host.tableOf_withHash s.host names hsound.ne_nil
    (Registry.key ⟨store, keyPrefix⟩ e.name) e.toHash
  rw [if_pos rfl] at htable
  rw [htable]
  by_cases hname : e.name = name
  · -- what was there is an entry too, so the two merge to the new one
    subst hname
    rw [Function.update_self]
    refine Registry.entryIn_set_self (r := ⟨id, keyPrefix⟩) (c := .table _) trivial e
      fun checked hchecked => ?_
    rw [hsound.entryIn_eq] at hchecked
    obtain ⟨old, -, hold⟩ := Option.map_eq_some_iff.1 hchecked
    exact ⟨old, hold.symm⟩
  · rw [Function.update_of_ne (Ne.symm hname), ← hsound.entryIn_eq id]
    exact Registry.entryIn_set_of_ne (r := ⟨id, keyPrefix⟩) (c := .table _) hname e.toHash

/-- Every turn keeps `Sound`. -/
theorem sound_turn (hsound : Sound keyPrefix names refusal? start s) (i : ι) :
    Sound keyPrefix names refusal? start (turn keyPrefix s i) := by
  have hends := hsound.turnEnds i
  generalize turn keyPrefix s i = later at hends ⊢
  cases hends with
  | @published e =>
    have hread := hsound.entryIn_withHash (s.clients i).store
    exact hsound.advance (by rfl) (by rfl) (by rfl) (fun id name => hread id e name) trivial
  | began hcurrent => exact hsound.advance (by rfl) (by rfl) (by rfl) hsound.entryIn_eq hcurrent
  | declined hcurrent => exact hsound.advance (by rfl) (by rfl) (by rfl) hsound.entryIn_eq hcurrent
  | found => exact hsound.advance (by rfl) (by rfl) (by rfl) hsound.entryIn_eq rfl
  | failed hrefused =>
    exact hsound.advance (by rfl) (by rfl) (by rfl) hsound.entryIn_eq ⟨_, _, hrefused, rfl⟩
  | idle => exact hsound

theorem run_append_singleton (s : State ι) (order : List ι) (i : ι) :
    run keyPrefix s (order ++ [i]) = turn keyPrefix (run keyPrefix s order) i := by
  rw [run, List.foldl_append]
  rfl

theorem sound_run (hsound : Sound keyPrefix names refusal? start s) (order : List ι) :
    Sound keyPrefix names refusal? start (run keyPrefix s order) := by
  induction order using List.reverseRecOn with
  | nil => exact hsound
  | append_singleton order i ih =>
    rw [run_append_singleton]
    exact sound_turn ih i

/-! ## Names without contention -/

/-- Client `i` is between the two steps of adding a command named `name`. -/
def State.IsAdding (s : State ι) (name : String) (i : ι) : Prop :=
  ∃ e, (s.clients i).adding = some e ∧ e.name = name

/-- At no time two clients are between the two steps of adding commands named `name`. -/
def Uncontended (keyPrefix : String) (s : State ι) (order : List ι) (name : String) : Prop :=
  ∀ earlier, earlier <+: order → ∀ i j, (run keyPrefix s earlier).IsAdding name i →
    (run keyPrefix s earlier).IsAdding name j → i = j

/-- While a client is between its two steps nothing is published under `name`, and nothing has been
published where something was. -/
structure Orderly (start : String → Option Entry) (name : String) (s : State ι) : Prop where
  -- nothing is published while a client is between its two steps
  current_eq : ∀ i, s.IsAdding name i → current start s.trace name = none
  -- nothing has been published where something was
  isFirst : Throughout (Outcome.IsFirst name) start s.trace

variable {name : String}

theorem Orderly.advance (horderly : Orderly start name s) {i : ι} {host : Host} {client : Client}
    {outcome : Outcome} (hnot : outcome.publishes name = false)
    (hclient : ∀ e, client.adding = some e → e.name = name → current start s.trace name = none) :
    Orderly start name (s.advance i host client outcome) := by
  refine ⟨fun j hj => ?_, throughout_append_singleton horderly.isFirst fun hpublishes => ?_⟩
  · rw [State.advance, current_append_singleton, apply_of_not_publishes hnot]
    obtain ⟨e, hadding, hname⟩ := hj
    by_cases hji : j = i
    · subst hji
      rw [clients_advance_self] at hadding
      exact hclient e hadding hname
    · rw [clients_advance_of_ne hji] at hadding
      exact horderly.current_eq j ⟨e, hadding, hname⟩
  · rw [hnot] at hpublishes
    cases hpublishes

/-- A turn keeps `Orderly`, if no two clients are between their two steps. -/
theorem orderly_turn (hsound : Sound keyPrefix names refusal? start s)
    (horderly : Orderly start name s)
    (hone : ∀ i j, s.IsAdding name i → s.IsAdding name j → i = j) (i : ι) :
    Orderly start name (turn keyPrefix s i) := by
  have hends := hsound.turnEnds i
  generalize turn keyPrefix s i = later at hends ⊢
  cases hends with
  | @published e hadding =>
    by_cases hname : e.name = name
    · -- the client was the only one, and nothing was published
      have hnone := horderly.current_eq i ⟨e, hadding, hname⟩
      refine ⟨fun j hj => ?_, throughout_append_singleton horderly.isFirst fun _ => hnone⟩
      obtain ⟨other, hother, hsame⟩ := hj
      by_cases hji : j = i
      · subst hji
        rw [clients_advance_self] at hother
        cases hother
      · rw [clients_advance_of_ne hji] at hother
        exact absurd (hone j i ⟨other, hother, hsame⟩ ⟨e, hadding, hname⟩) hji
    · exact horderly.advance (by simpa [Outcome.publishes] using hname) nofun
  | began hcurrent =>
    refine horderly.advance rfl fun found hfound hname => ?_
    cases hfound
    exact hname ▸ hcurrent
  | declined => exact horderly.advance rfl nofun
  | found => exact horderly.advance rfl nofun
  | failed => exact horderly.advance rfl nofun
  | idle => exact horderly

theorem orderly_run (hsound : Sound keyPrefix names refusal? start s)
    (horderly : Orderly start name s) {order : List ι}
    (huncontended : Uncontended keyPrefix s order name) :
    Orderly start name (run keyPrefix s order) := by
  induction order using List.reverseRecOn with
  | nil => exact horderly
  | append_singleton order i ih =>
    have hbefore := ih fun earlier hearlier =>
      huncontended earlier (hearlier.trans (List.prefix_append order [i]))
    rw [run_append_singleton]
    exact orderly_turn (sound_run hsound order) hbefore
      (huncontended order (List.prefix_append order [i])) i

/-! ## First wins -/

/-- Clients that are about to begin, all connected to one file with entries under their keys. -/
structure Begins (keyPrefix : String) (names : List String) (start : String → Option Entry)
    (s : State ι) : Prop where
  store_eq : ∀ i, s.host.stores[(s.clients i).store]? = some (.connection (.file names) true)
  ne_nil : names ≠ []
  -- under every name there is an entry or nothing
  entryIn_eq : ∀ id name, Registry.entryIn ⟨id, keyPrefix⟩ (.table (s.host.tableOf (.file names)))
    name = (start name).map .ok
  adding_eq : ∀ i, (s.clients i).adding = none
  trace_eq : s.trace = []

omit [DecidableEq ι] in
theorem Begins.sound (hbegins : Begins keyPrefix names start s) :
    Sound keyPrefix names (s.host.refusal? (.file names)) start s := by
  have htrace := hbegins.trace_eq
  refine ⟨hbegins.store_eq, hbegins.ne_nil, rfl, ?_, ?_⟩
  · rw [htrace]
    exact hbegins.entryIn_eq
  · rw [htrace]
    exact throughout_nil _ start

omit [DecidableEq ι] in
theorem Begins.orderly (hbegins : Begins keyPrefix names start s) (name : String) :
    Orderly start name s := by
  have htrace := hbegins.trace_eq
  refine ⟨fun i hi => ?_, ?_⟩
  · obtain ⟨e, hadding, -⟩ := hi
    rw [hbegins.adding_eq] at hadding
    cases hadding
  · rw [htrace]
    exact throughout_nil _ start

/-- For every order of turns and whatever the database refuses: each outcome is right, so a step
fails only as the database refuses it, and every look finds the entry that was published last. If
`name` is `Uncontended`, the first command that is published under it stays. -/
theorem first_wins_of_uncontended (hbegins : Begins keyPrefix names start s) (order : List ι) :
    let after := run keyPrefix s order
    let refusal? := s.host.refusal? (.file names)
    Throughout (Outcome.IsRight refusal?) start after.trace ∧
      (∀ i name,
        let r : Registry := ⟨(after.clients i).store, keyPrefix⟩
        (r.get name).run.run after.host =
          match refusal? (.read (r.key name)) with
          | none => (.ok (current start after.trace name), after.host)
          | some refusal => (.error (.store (.refused refusal)), after.host)) ∧
      ∀ name, Uncontended keyPrefix s order name → FirstWins start name after.trace := by
  intro after refusal?
  have hsound : Sound keyPrefix names refusal? start after := sound_run hbegins.sound order
  refine ⟨hsound.isRight, fun i name => hsound.run_get i name, fun name huncontended => ?_⟩
  exact firstWins_of_isFirst hsound.isRight
    (orderly_run hbegins.sound (hbegins.orderly name) huncontended).isFirst

end

/-! ## Two clients -/

/-- A host with two connections to one file, which holds nothing. -/
def twice : Host :=
  ⟨FileTree.empty.put ["registry.db"] (.database Table.empty), Refusals.none,
    [.connection (.file ["registry.db"]) true, .connection (.file ["registry.db"]) true], []⟩

/-- Two clients that add `echo`, each with a help of its own, and then ask for it. -/
def rivals : State Bool :=
  ⟨twice, fun side => ⟨if side then 0 else 1, none,
    [.add { Echo.command with help := if side then "first" else "second" }, .get "echo"]⟩, []⟩

/-- Here one client has published before the other begins. -/
theorem first_wins_of_rivals :
    Begins "p" ["registry.db"] (fun _ => none) rivals ∧
      Uncontended "p" rivals [true, true, false, true] "echo" ∧
      FirstWins (fun _ => none) "echo" (run "p" rivals [true, true, false, true]).trace := by
  have hbegins : Begins "p" ["registry.db"] (fun _ => none) rivals :=
    ⟨fun side => by cases side <;> rfl, nofun, fun _ _ => rfl, fun _ => rfl, rfl⟩
  have huncontended : Uncontended "p" rivals [true, true, false, true] "echo" := by
    -- the second client is refused at once
    have hsecond : ∀ earlier ∈ [true, true, false, true].inits,
        ((run "p" rivals earlier).clients false).adding = none := by
      have hinits : [true, true, false, true].inits =
          [[], [true], [true, true], [true, true, false], [true, true, false, true]] := rfl
      simp only [hinits, List.forall_mem_cons]
      exact ⟨rfl, rfl, rfl, rfl, rfl, nofun⟩
    have honly : ∀ earlier, earlier <+: [true, true, false, true] → ∀ side,
        (run "p" rivals earlier).IsAdding "echo" side → side = true := by
      rintro earlier hearlier (_ | _) ⟨e, hadding, -⟩
      · rw [hsecond earlier ((List.mem_inits ..).2 hearlier)] at hadding
        cases hadding
      · rfl
    intro earlier hearlier i j hi hj
    rw [honly earlier hearlier i hi, honly earlier hearlier j hj]
  exact ⟨hbegins, huncontended,
    (first_wins_of_uncontended hbegins [true, true, false, true]).2.2 "echo" huncontended⟩

/-- Both clients look before either has published. Then both publish, and the entry that one of them
has found is replaced by that of the other. -/
theorem entry_replaced_in_race :
    (run "p" rivals [true, false, false, false, true, true]).trace =
        [(true, .began ⟨"echo", "first"⟩), (false, .began ⟨"echo", "second"⟩),
          (false, .published ⟨"echo", "second"⟩), (false, .found "echo" (some ⟨"echo", "second"⟩)),
          (true, .published ⟨"echo", "first"⟩), (true, .found "echo" (some ⟨"echo", "first"⟩))] ∧
      ¬FirstWins (fun _ => none) "echo"
        (run "p" rivals [true, false, false, false, true, true]).trace := by
  refine ⟨rfl, fun hfirst => ?_⟩
  have honce := hfirst.once
  have hlength : ((run "p" rivals [true, false, false, false, true, true]).trace.filter
      fun outcome => outcome.2.publishes "echo").length = 2 := rfl
  omega

end Race

end ChatCommands
