import ChatCommands.Proofs.Running
import ChatCommands.Proofs.StoreParts

/-!
# What a store holds

The steps of a host on a store say the same for every kind of store: they look up, list and write in
what the store holds (`Host.content?`), unless the store is closed or its database refuses
(`Host.denied?`). `run_getHash`, `run_keys` and `run_setHash` say what each step does.
-/

namespace ChatCommands

/-- What an open store holds. -/
inductive Content where
  | memory (m : Memory)
  | table (t : Table)
  -- nothing ever: the top of the tree of files stays a directory
  | nowhere

namespace Content

def get? : Content → String → Option Hash
  | memory m, key => m.get? key
  | table t, key => t.get? key
  | nowhere, _ => none

def keys : Content → String → List String
  | memory m, start => m.keys start
  | table t, start => t.keys start
  | nowhere, _ => []

/-- The content with a hash merged into the one under a key. -/
def set : Content → String → Hash → Content
  | memory m, key, hash => memory (m.set key hash)
  | table t, key, hash => table (t.set key hash)
  | nowhere, _, _ => nowhere

/-- The content under the keys that begin with `start`. -/
def part (start : String) : Content → Content
  | memory m => memory (m.part start)
  | table t => table (t.part start)
  | nowhere => nowhere

variable {start key : String}

theorem get?_part (h : hasStart start key = true) (c : Content) :
    (c.part start).get? key = c.get? key := by
  cases c with
  | memory m => exact Memory.get?_part h m
  | table t => exact Table.get?_part h t
  | nowhere => rfl

theorem keys_part (start : String) (c : Content) : (c.part start).keys start = c.keys start := by
  cases c with
  | memory m => exact Memory.keys_part start m
  | table t => exact Table.keys_part start t
  | nowhere => rfl

theorem part_set (h : hasStart start key = true) (c : Content) (hash : Hash) :
    (c.set key hash).part start = (c.part start).set key hash := by
  cases c with
  | memory m => exact congrArg memory (Memory.part_set h m hash)
  | table t => exact congrArg table (Table.part_set h t hash)
  | nowhere => rfl

theorem part_set_of_not (h : hasStart start key = false) (c : Content) (hash : Hash) :
    (c.set key hash).part start = c.part start := by
  cases c with
  | memory m => exact congrArg memory (Memory.part_set_of_not h m hash)
  | table t => exact congrArg table (Table.part_set_of_not h t hash)
  | nowhere => rfl

theorem hasStart_of_mem_keys {c : Content} (h : key ∈ c.keys start) :
    hasStart start key = true := by
  cases c with
  | memory m => exact (List.mem_filter.1 h).2
  | table t => exact startsWith_of_matchesStart (List.mem_filter.1 (List.mem_eraseDups.1 h)).2
  | nowhere => cases h

theorem get?_set_of_ne {other : String} (hne : key ≠ other) (c : Content) (hash : Hash) :
    (c.set key hash).get? other = c.get? other := by
  cases c with
  | memory m => exact (Memory.get?_set m key other hash).trans (if_neg hne)
  | table t => exact Table.get?_set_of_ne hne t hash
  | nowhere => rfl

end Content

namespace Host

/-- What a store holds on a host, if it is open. -/
def contentOf (h : Host) : Store → Option Content
  | .memory m => some (.memory m)
  | .connection (.own t) true => some (.table t)
  | .connection (.file []) true => some .nowhere
  | .connection (.file (name :: names)) true => some (.table (h.tableOf (.file (name :: names))))
  | .connection _ false => none

/-- What the store with number `id` holds, if it is open. -/
def content? (h : Host) (id : StoreId) : Option Content := h.stores[id]?.bind h.contentOf

theorem content?_withStore {h : Host} {id : StoreId} {old : Store} (hold : h.stores[id]? = some old)
    (store : Store) : (h.withStore id store).content? id = h.contentOf store := by
  obtain ⟨hlt, -⟩ := List.getElem?_eq_some_iff.1 hold
  rw [content?, withStore, List.getElem?_set_self hlt]
  rfl

theorem content?_withStore_of_ne {id other : StoreId} (hne : id ≠ other) (h : Host)
    (store : Store) : (h.withStore id store).content? other = h.content? other := by
  rw [content?, withStore, List.getElem?_set_ne hne]
  rfl

/-! ## Statements that are not carried out -/

/-- Why a store does not carry out a statement, if it does not: it is closed, or its database
refuses. -/
def denialOf (h : Host) (statement : Statement) : Store → Option StoreFailure
  | .memory _ => none
  | .connection database true => (h.refusal? database statement).map .refused
  | .connection _ false => some .closed

/-- `denialOf` the store with number `id`. -/
def denied? (h : Host) (id : StoreId) (statement : Statement) : Option StoreFailure :=
  match h.stores[id]? with
  | some store => h.denialOf statement store
  | none => some .closed

/-- A closed store denies every statement with `closed`, and no open store denies with that. -/
theorem denied?_eq_closed_iff {h : Host} {id : StoreId} {statement : Statement} :
    h.denied? id statement = some .closed ↔ h.content? id = none := by
  unfold denied? content?
  rcases h.stores[id]? with _ | m | ⟨(_ | ⟨name, names⟩) | t, _ | _⟩ <;>
    simp [denialOf, contentOf]

theorem exists_content?_of_denied?_eq_none {h : Host} {id : StoreId} {statement : Statement}
    (hserved : h.denied? id statement = none) : ∃ c, h.content? id = some c := by
  cases hcontent : h.content? id with
  | none => simp [denied?_eq_closed_iff.2 hcontent] at hserved
  | some c => exact ⟨c, rfl⟩

theorem denied?_eq_none_of_refusals {h : Host} {id : StoreId} {c : Content}
    (hnone : h.refusals = Refusals.none) (hopen : h.content? id = some c) (statement : Statement) :
    h.denied? id statement = none := by
  obtain ⟨store, hstore, hcontent⟩ := Option.bind_eq_some_iff.1 hopen
  unfold denied?
  rw [hstore]
  rcases store with m | ⟨database, _ | _⟩
  · rfl
  · simp [contentOf] at hcontent
  · simp [denialOf, refusal?, hnone, Refusals.none]

theorem denied?_of_memory {h : Host} {id : StoreId} {m : Memory}
    (hopen : h.content? id = some (.memory m)) (statement : Statement) :
    h.denied? id statement = none := by
  obtain ⟨store, hstore, hcontent⟩ := Option.bind_eq_some_iff.1 hopen
  rw [denied?, hstore]
  rcases store with m | ⟨(_ | ⟨name, names⟩) | t, _ | _⟩
  · rfl
  all_goals cases hcontent

theorem denied?_withStore {h : Host} {id : StoreId} {old new : Store}
    (hold : h.stores[id]? = some old)
    (hsame : ∀ statement, h.denialOf statement new = h.denialOf statement old) (other : StoreId)
    (statement : Statement) :
    (h.withStore id new).denied? other statement = h.denied? other statement := by
  unfold denied? withStore
  by_cases hne : id = other
  · subst hne
    obtain ⟨hlt, -⟩ := List.getElem?_eq_some_iff.1 hold
    rw [List.getElem?_set_self hlt, hold]
    exact hsame statement
  · rw [List.getElem?_set_ne hne]
    rfl

/-! ## Writing -/

/-- `after` is `h` with a hash written in the store `id`. That store holds the hash; any other one
holds it too, being connected to the same database, or is as it was. -/
structure Written (id : StoreId) (key : String) (hash : Hash) (h after : Host) : Prop where
  self : after.content? id = (h.content? id).map (·.set key hash)
  -- any other store holds it too, or is as it was
  others : ∀ other, after.content? other = h.content? other ∨
    after.content? other = (h.content? other).map (·.set key hash)
  -- what is denied stays denied, and nothing else
  denied?_eq : after.denied? = h.denied?
  refusals_eq : after.refusals = h.refusals

theorem written_withStore {h : Host} {id : StoreId} {key : String} {hash : Hash} {old new : Store}
    (hold : h.stores[id]? = some old)
    (hnew : h.contentOf new = (h.contentOf old).map (·.set key hash))
    (hsame : ∀ statement, h.denialOf statement new = h.denialOf statement old) :
    Written id key hash h (h.withStore id new) := by
  have hself : (h.withStore id new).content? id = (h.content? id).map (·.set key hash) := by
    rw [content?_withStore hold, hnew, content?, hold, Option.bind_some]
  refine ⟨hself, fun other => ?_,
    funext fun other => funext (denied?_withStore hold hsame other), rfl⟩
  by_cases hne : id = other
  · exact .inr (hne ▸ hself)
  · exact .inl (content?_withStore_of_ne hne h new)

def withHash (h : Host) (names : List String) (key : String) (hash : Hash) : Host :=
  { h with
    files := h.files.put names (.database ((h.tableOf (.file names)).set key hash)) }

theorem tableOf_withHash (h : Host) (names : List String) {others : List String}
    (hothers : others ≠ []) (key : String) (hash : Hash) :
    (h.withHash names key hash).tableOf (.file others) =
      if names = others then (h.tableOf (.file names)).set key hash
      else h.tableOf (.file others) := by
  by_cases heq : names = others <;>
    simp [tableOf, withHash, FileTree.get?, FileTree.put, OrderedMap.get?_insert, hothers, heq]

theorem contentOf_withHash (h : Host) (names : List String) (key : String) (hash : Hash)
    (store : Store) :
    (h.withHash names key hash).contentOf store =
      if store = .connection (.file names) true then (h.contentOf store).map (·.set key hash)
      else h.contentOf store := by
  rcases store with m | ⟨(_ | ⟨name, others⟩) | t, _ | _⟩
  · rfl
  · simp [contentOf]
  · split <;> rfl
  · simp [contentOf]
  · -- a database in a file, which may be the one that is written in
    rw [contentOf, contentOf, tableOf_withHash h names (List.cons_ne_nil name others)]
    by_cases heq : names = name :: others
    · subst heq
      rw [if_pos rfl, if_pos rfl]
      rfl
    · have hne : name :: others ≠ names := Ne.symm heq
      rw [if_neg heq, if_neg (by simpa using hne)]
  · simp [contentOf]
  · simp [contentOf]

theorem written_withHash {h : Host} {id : StoreId} {names : List String}
    (hstore : h.stores[id]? = some (.connection (.file names) true)) (key : String) (hash : Hash) :
    Written id key hash h (h.withHash names key hash) := by
  have hcontent (other : StoreId) : (h.withHash names key hash).content? other =
      h.stores[other]?.bind (h.withHash names key hash).contentOf := rfl
  refine ⟨?_, fun other => ?_, rfl, rfl⟩
  · rw [hcontent, content?, hstore, Option.bind_some, Option.bind_some, contentOf_withHash,
      if_pos rfl]
  · rw [hcontent, content?]
    cases hother : h.stores[other]? with
    | none => exact .inl rfl
    | some store =>
      -- another store is connected to the same file, or its content is no part of the file
      rw [Option.bind_some, Option.bind_some, contentOf_withHash]
      split
      · exact .inr rfl
      · exact .inl rfl

end Host

namespace Hosted

/-! ## The steps -/

theorem run_note (event : Event) (h : Host) :
    (note event).run.run h = (.ok (), h.noted event) := rfl

theorem run_ask {database : Database} {statement : Statement} {h : Host}
    (hserved : h.denialOf statement (.connection database true) = none) :
    (ask database statement).run.run h = (.ok (), h) := by
  have hnone : h.refusal? database statement = none := by simpa [Host.denialOf] using hserved
  simp only [ask, run_run_bind, run_run_get, hnone]
  rfl

theorem run_ask_of_denied {database : Database} {statement : Statement} {h : Host}
    {failure : StoreFailure}
    (hdenied : h.denialOf statement (.connection database true) = some failure) :
    (ask database statement).run.run h = (.error (.store failure), h) := by
  obtain ⟨refusal, hsome, rfl⟩ := Option.map_eq_some_iff.1 hdenied
  simp only [ask, run_run_bind, run_run_get, hsome]
  rfl

theorem run_getHash_of_denied {id : StoreId} {key : String} {h : Host} {failure : StoreFailure}
    (hdenied : h.denied? id (.read key) = some failure) :
    (getHash id key).run.run h = (.error (.store failure), h) := by
  revert hdenied
  simp only [getHash, run_run_bind, run_run_get, Host.denied?]
  rcases h.stores[id]? with _ | m | ⟨database, _ | _⟩ <;> intro hdenied
  · cases hdenied; rfl
  · cases hdenied
  · cases hdenied; rfl
  · rw [run_run_bind, run_ask_of_denied hdenied]

theorem run_getHash {id : StoreId} {key : String} {h : Host} {c : Content}
    (hserved : h.denied? id (.read key) = none) (hopen : h.content? id = some c) :
    (getHash id key).run.run h = (.ok (c.get? key), h) := by
  revert hserved hopen
  simp only [getHash, run_run_bind, run_run_get, Host.denied?, Host.content?]
  rcases h.stores[id]? with _ | m | ⟨database, _ | _⟩ <;> intro hserved hopen
  · cases hopen
  · cases hopen; rfl
  · cases hserved
  · rw [run_run_bind, run_ask hserved]
    rcases database with (_ | ⟨name, names⟩) | t <;> (cases hopen; rfl)

theorem run_keys_of_denied {id : StoreId} {start : String} {h : Host} {failure : StoreFailure}
    (hdenied : h.denied? id (.search start) = some failure) :
    (keys id start).run.run h = (.error (.store failure), h) := by
  revert hdenied
  simp only [keys, run_run_bind, run_run_get, Host.denied?]
  rcases h.stores[id]? with _ | m | ⟨database, _ | _⟩ <;> intro hdenied
  · cases hdenied; rfl
  · cases hdenied
  · cases hdenied; rfl
  · rw [run_run_bind, run_ask_of_denied hdenied]

theorem run_keys {id : StoreId} {start : String} {h : Host} {c : Content}
    (hserved : h.denied? id (.search start) = none) (hopen : h.content? id = some c) :
    (keys id start).run.run h = (.ok (c.keys start), h) := by
  revert hserved hopen
  simp only [keys, run_run_bind, run_run_get, Host.denied?, Host.content?]
  rcases h.stores[id]? with _ | m | ⟨database, _ | _⟩ <;> intro hserved hopen
  · cases hopen
  · cases hopen; rfl
  · cases hserved
  · rw [run_run_bind, run_ask hserved]
    rcases database with (_ | ⟨name, names⟩) | t <;> (cases hopen; rfl)

theorem getHash_host (id : StoreId) (key : String) (h : Host) :
    ((getHash id key).run.run h).2 = h := by
  cases hserved : h.denied? id (.read key) with
  | some failure => rw [run_getHash_of_denied hserved]
  | none =>
    obtain ⟨c, hopen⟩ := Host.exists_content?_of_denied?_eq_none hserved
    rw [run_getHash hserved hopen]

theorem keys_host (id : StoreId) (start : String) (h : Host) :
    ((keys id start).run.run h).2 = h := by
  cases hserved : h.denied? id (.search start) with
  | some failure => rw [run_keys_of_denied hserved]
  | none =>
    obtain ⟨c, hopen⟩ := Host.exists_content?_of_denied?_eq_none hserved
    rw [run_keys hserved hopen]

theorem run_setHash_of_denied {id : StoreId} {key : String} {hash : Hash} {h : Host}
    {failure : StoreFailure} (hdenied : h.denied? id (.write key hash) = some failure) :
    (setHash id key hash).run.run h = (.error (.store failure), h) := by
  revert hdenied
  simp only [setHash, run_run_bind, run_run_get, Host.denied?]
  rcases h.stores[id]? with _ | m | ⟨database, _ | _⟩ <;> intro hdenied
  · cases hdenied; rfl
  · cases hdenied
  · cases hdenied; rfl
  · rw [run_run_bind, run_ask_of_denied hdenied]

theorem run_setHash {id : StoreId} {key : String} {hash : Hash} {h : Host} {c : Content}
    (hserved : h.denied? id (.write key hash) = none) (hopen : h.content? id = some c) :
    ∃ after, (setHash id key hash).run.run h = (.ok (), after) ∧
      Host.Written id key hash h after := by
  obtain ⟨store, hstore, hcontent⟩ := Option.bind_eq_some_iff.1 hopen
  have hdenial : h.denialOf (.write key hash) store = none := by
    rwa [Host.denied?, hstore] at hserved
  have hrun : (setHash id key hash).run.run h =
      (match store with
        | .memory content => set (h.withStore id (.memory (content.set key hash)))
        | .connection database true => do
          ask database (.write key hash)
          set (h.withTable id ((h.tableOf database).set key hash) database)
        | .connection _ false => refuse .closed : Hosted Unit).run.run h := by
    rw [setHash, run_run_bind, run_run_get]
    simp only [hstore]
    rcases store with m | ⟨database, _ | _⟩ <;> rfl
  rw [hrun]
  -- hashes in memory; a database in a file, closed or open; one of the connection's own
  rcases store with m | ⟨names | t, _ | _⟩
  · exact ⟨_, rfl, Host.written_withStore hstore rfl fun _ => rfl⟩
  · cases hdenial
  · simp only [run_run_bind, run_ask hdenial]
    exact ⟨_, rfl, Host.written_withHash hstore key hash⟩
  · cases hdenial
  · simp only [run_run_bind, run_ask hdenial]
    exact ⟨_, rfl, Host.written_withStore hstore rfl fun _ => rfl⟩

end Hosted

end ChatCommands
