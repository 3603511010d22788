import ChatCommands.Proofs.StoreFields

/-!
# Memory and database answer alike

A store in memory and a store in a database are called in the same way. This file runs the same
calls on a fresh store of each kind and compares the answers. The two hold the same text in every
field throughout (`Simulates`), and that is all that can be asked for, but for one thing: a hash
without fields, which the memory holds under its key while a table has no row for it.

`answers_alike` says that the answers are the same, except for keys under which nothing but hashes
without fields has been written, as long as the database carries out the statements of the calls.
Texts with U+0000, which the search of a database never finds, are left aside.
-/

namespace ChatCommands

namespace Store

/-! ## Calls -/

inductive Call where
  | get (key : String)
  | set (key : String) (hash : Hash)
  | keys (start : String)

inductive Answer where
  | found (hash : Option Hash)
  | merged
  | listed (keys : List String)
deriving DecidableEq

/-- What a database is asked to do for a call. -/
def Call.statement : Call → Statement
  | get key => .read key
  | set key hash => .write key hash
  | keys start => .search start

def perform (id : StoreId) : Call → Hosted Answer
  | .get key => return .found (← Hosted.getHash id key)
  | .set key hash => do
    Hosted.setHash id key hash
    return .merged
  | .keys start => return .listed (← Hosted.keys id start)

/-- The host after some calls. -/
def after (id : StoreId) : List Call → Host → Host
  | [], h => h
  | call :: calls, h => after id calls ((perform id call).run.run h).2

/-- The answer to `call` behind the calls of `past`. -/
def answerAfter (id : StoreId) (past : List Call) (call : Call) (h : Host) :
    Except Failure Answer :=
  ((perform id call).run.run (after id past h)).1

theorem after_append_singleton (id : StoreId) (past : List Call) (call : Call) (h : Host) :
    after id (past ++ [call]) h = ((perform id call).run.run (after id past h)).2 := by
  induction past generalizing h with
  | nil => rfl
  | cons head past ih => exact ih _

section
variable {id : StoreId} {h : Host} {c : Content}

theorem run_perform_get (hopen : h.content? id = some c) {key : String}
    (hserved : h.denied? id (.read key) = none) :
    (perform id (.get key)).run.run h = (.ok (.found (c.get? key)), h) := by
  simp only [perform, run_run_bind, Hosted.run_getHash hserved hopen, run_run_pure]

theorem run_perform_keys (hopen : h.content? id = some c) {start : String}
    (hserved : h.denied? id (.search start) = none) :
    (perform id (.keys start)).run.run h = (.ok (.listed (c.keys start)), h) := by
  simp only [perform, run_run_bind, Hosted.run_keys hserved hopen, run_run_pure]

theorem run_perform_set (hopen : h.content? id = some c) {key : String} {hash : Hash}
    (hserved : h.denied? id (.write key hash) = none) :
    ∃ later, (perform id (.set key hash)).run.run h = (.ok .merged, later) ∧
      later.content? id = some (c.set key hash) ∧ later.denied? = h.denied? := by
  obtain ⟨later, hrun, hwritten⟩ := Hosted.run_setHash hserved hopen
  refine ⟨later, ?_, ?_, hwritten.denied?_eq⟩
  · simp only [perform, run_run_bind, hrun, run_run_pure]
  · rw [hwritten.self, hopen, Option.map_some]

/-- `perform` never changes what is denied. -/
theorem denied?_after (id : StoreId) (past : List Call) (h : Host) :
    (after id past h).denied? = h.denied? := by
  induction past generalizing h with
  | nil => rfl
  | cons call past ih =>
    refine (ih _).trans ?_
    cases call with
    | get key => rw [perform, run_run_bind_pure, Hosted.getHash_host]
    | keys start => rw [perform, run_run_bind_pure, Hosted.keys_host]
    | set key hash =>
      rw [perform, run_run_bind_pure]
      cases hserved : h.denied? id (.write key hash) with
      | some failure => rw [Hosted.run_setHash_of_denied hserved]
      | none =>
        obtain ⟨c, hopen⟩ := Host.exists_content?_of_denied?_eq_none hserved
        obtain ⟨later, hrun, hwritten⟩ := Hosted.run_setHash hserved hopen
        rw [hrun]
        exact hwritten.denied?_eq

end

/-! ## Answers that cannot be told apart -/

/-- Something was written under `key`, and every hash that was written there is empty. -/
def IsBare (key : String) (past : List Call) : Prop :=
  (∃ hash, Call.set key hash ∈ past) ∧ ∀ hash, Call.set key hash ∈ past → hash = ∅

/-- Both are `none`, or both are hashes with the same text in every field. The order of the fields
may differ: a table keeps them sorted. -/
def SameHash : Option Hash → Option Hash → Prop
  | none, none => True
  | some a, some b => ∀ field, a.get? field = b.get? field
  | _, _ => False

/-- What the answers `a` of a memory and `b` of a database have to do with each other. They are the
same, but under a key that `IsBare` the memory holds an empty hash and the database nothing. -/
def Alike (past : List Call) : Call → Answer → Answer → Prop
  | .get key, .found a, .found b =>
    (IsBare key past → a = some ∅ ∧ b = none) ∧ (¬IsBare key past → SameHash a b)
  | .set _ _, .merged, .merged => True
  | .keys _, .listed inMemory, .listed inTable =>
    inMemory.Nodup ∧ inTable.Nodup ∧ ∀ key, key ∈ inTable ↔ key ∈ inMemory ∧ ¬IsBare key past
  | _, _, _ => False

/-! ## Simulation -/

/-- What holds between a memory and a table after the calls of `past` on both. -/
structure Simulates (past : List Call) (m : Memory) (t : Table) : Prop where
  field?_eq : ∀ key field, t.field? key field = m.field? key field
  -- the memory holds a hash under the keys that have been written to
  isSome_iff : ∀ key, (m.get? key).isSome ↔ ∃ hash, Call.set key hash ∈ past
  -- the hash has no field if none that was written had one
  eq_empty_iff : ∀ key hash, m.get? key = some hash →
    (hash = ∅ ↔ ∀ other, Call.set key other ∈ past → other = ∅)

theorem simulates_nil : Simulates [] Memory.empty Table.empty where
  field?_eq _ _ := rfl
  isSome_iff key := by simp
  eq_empty_iff key hash h := by cases h

theorem eq_empty_iff_get? (hash : Hash) : hash = ∅ ↔ ∀ field, hash.get? field = none := by
  rw [← OrderedMap.entries_eq_nil_iff]
  exact ⟨congrArg OrderedMap.entries, fun h => OrderedMap.ext h⟩

variable {past : List Call} {m : Memory} {t : Table}

theorem Simulates.ask (hsim : Simulates past m t) {call : Call}
    (hcall : ∀ key hash, call ≠ .set key hash) : Simulates (past ++ [call]) m t := by
  have hmem (key : String) (hash : Hash) :
      Call.set key hash ∈ past ++ [call] ↔ Call.set key hash ∈ past := by
    rw [List.mem_append, List.mem_singleton]
    exact or_iff_left (hcall key hash).symm
  constructor
  · exact hsim.field?_eq
  · simpa only [hmem] using hsim.isSome_iff
  · simpa only [hmem] using hsim.eq_empty_iff

/-- `set` merges: the fields of the new hash hide those that were there. -/
theorem get?_merged (m : Memory) (key : String) (hash : Hash) (field : String) :
    (((m.get? key).getD ∅).insertAll hash.entries).get? field =
      (hash.get? field).or (m.field? key field) := by
  have hfield := m.field?_set key key hash field
  rwa [if_pos rfl, Memory.field?, Memory.get?_set, if_pos rfl, Option.bind_some] at hfield

theorem Simulates.write (hsim : Simulates past m t) (key : String) (hash : Hash) :
    Simulates (past ++ [.set key hash]) (m.set key hash) (t.set key hash) := by
  have hmem (other : String) (written : Hash) : Call.set other written ∈ past ++ [.set key hash] ↔
      Call.set other written ∈ past ∨ other = key ∧ written = hash := by
    simp
  refine ⟨fun other field => ?_, fun other => ?_, fun other found hfound => ?_⟩
  · -- both stores change their fields by one rule
    rw [Table.field?_set, Memory.field?_set, hsim.field?_eq, hsim.field?_eq]
  · rw [Memory.get?_set]
    by_cases hother : key = other
    · simp [hother]
    · simp [hother, Ne.symm hother, hsim.isSome_iff]
  · rw [Memory.get?_set] at hfound
    by_cases hother : key = other
    · -- the hash is without fields if the old one was and the new one is
      subst hother
      rw [if_pos rfl] at hfound
      cases hfound
      have hold : (∀ field, m.field? key field = none) ↔
          ∀ other, Call.set key other ∈ past → other = ∅ := by
        cases hget : m.get? key with
        | none =>
          have hnone : ¬∃ other, Call.set key other ∈ past := by
            rw [← hsim.isSome_iff, hget]
            simp
          exact iff_of_true (fun field => by rw [Memory.field?, hget]; rfl)
            fun other hmem => absurd ⟨other, hmem⟩ hnone
        | some old =>
          rw [← hsim.eq_empty_iff key old hget, eq_empty_iff_get?]
          simp [Memory.field?, hget]
      simp only [eq_empty_iff_get?, get?_merged, Option.or_eq_none_iff, forall_and, hold, hmem,
        or_imp, true_and, forall_eq]
      exact and_comm
    · rw [if_neg hother] at hfound
      simpa [hmem, Ne.symm hother] using hsim.eq_empty_iff other found hfound

theorem Simulates.isBare_iff (hsim : Simulates past m t) (key : String) :
    IsBare key past ↔ m.get? key = some ∅ := by
  rw [IsBare, ← hsim.isSome_iff]
  cases hget : m.get? key with
  | none => simp
  | some hash => simp [← hsim.eq_empty_iff key hash hget]

theorem Simulates.get?_eq_none_iff (hsim : Simulates past m t) (key : String) :
    t.get? key = none ↔ m.get? key = none ∨ m.get? key = some ∅ := by
  rw [Table.get?_eq_none_iff_field?]
  simp only [hsim.field?_eq, Memory.field?]
  cases m.get? key with
  | none => simp
  | some hash => simp [eq_empty_iff_get?]

theorem Simulates.sameHash (hsim : Simulates past m t) {key : String} (hbare : ¬IsBare key past) :
    SameHash (m.get? key) (t.get? key) := by
  rw [hsim.isBare_iff] at hbare
  cases hmemory : m.get? key with
  | none =>
    rw [(hsim.get?_eq_none_iff key).2 (.inl hmemory)]
    trivial
  | some a =>
    cases htable : t.get? key with
    | none =>
      rcases (hsim.get?_eq_none_iff key).1 htable with h | h
      · cases h.symm.trans hmemory
      · exact absurd h hbare
    | some b =>
      -- the order of the fields differs, the texts do not
      intro field
      have hfield := hsim.field?_eq key field
      rw [Table.field?, Memory.field?, htable, hmemory] at hfield
      exact hfield.symm

/-! ## Runs -/

variable {g h : Host} {i j : StoreId}

/-- `Simulates` holds after any calls on fresh stores, if the database refuses none of their
statements. -/
theorem exists_simulates (hmemory : g.content? i = some (.memory Memory.empty))
    (htable : h.content? j = some (.table Table.empty)) (past : List Call)
    (hserved : ∀ asked ∈ past, h.denied? j asked.statement = none) :
    ∃ m t, (after i past g).content? i = some (.memory m) ∧
      (after j past h).content? j = some (.table t) ∧ Simulates past m t := by
  induction past using List.reverseRecOn with
  | nil => exact ⟨_, _, hmemory, htable, simulates_nil⟩
  | append_singleton past call ih =>
    obtain ⟨m, t, hm, ht, hsim⟩ := ih fun asked hasked =>
      hserved asked (List.mem_append_left _ hasked)
    have hnow : (after j past h).denied? j call.statement = none := by
      rw [denied?_after]
      exact hserved call (List.mem_append_right _ List.mem_cons_self)
    rw [after_append_singleton, after_append_singleton]
    cases call with
    | get key =>
      rw [run_perform_get hm (Host.denied?_of_memory hm _), run_perform_get ht hnow]
      exact ⟨m, t, hm, ht, hsim.ask nofun⟩
    | set key hash =>
      obtain ⟨_, hrunm, hm', -⟩ := run_perform_set hm (Host.denied?_of_memory hm _)
      obtain ⟨_, hrunt, ht', -⟩ := run_perform_set ht hnow
      rw [hrunm, hrunt]
      exact ⟨_, _, hm', ht', hsim.write key hash⟩
    | keys start =>
      rw [run_perform_keys hm (Host.denied?_of_memory hm _), run_perform_keys ht hnow]
      exact ⟨m, t, hm, ht, hsim.ask nofun⟩

/-- On a fresh memory and a fresh database both stores answer every call behind any past calls, and
the answers are `Alike`. The database is assumed to carry out the statements of the calls, and a
search to be for a text without U+0000. -/
theorem answers_alike (hmemory : g.content? i = some (.memory Memory.empty))
    (htable : h.content? j = some (.table Table.empty)) (past : List Call) (call : Call)
    (hserved : ∀ asked ∈ past ++ [call], h.denied? j asked.statement = none)
    (hnull : ∀ start, call = .keys start → '\x00' ∉ start.toList) :
    ∃ a b, answerAfter i past call g = .ok a ∧ answerAfter j past call h = .ok b ∧
      Alike past call a b := by
  obtain ⟨m, t, hm, ht, hsim⟩ := exists_simulates hmemory htable past fun asked hasked =>
    hserved asked (List.mem_append_left _ hasked)
  have hnow : (after j past h).denied? j call.statement = none := by
    rw [denied?_after]
    exact hserved call (List.mem_append_right _ List.mem_cons_self)
  rw [answerAfter, answerAfter]
  cases call with
  | get key =>
    rw [run_perform_get hm (Host.denied?_of_memory hm _), run_perform_get ht hnow]
    refine ⟨_, _, rfl, rfl, fun hbare => ?_, fun hbare => hsim.sameHash hbare⟩
    rw [hsim.isBare_iff] at hbare
    exact ⟨hbare, (hsim.get?_eq_none_iff key).2 (.inr hbare)⟩
  | set key hash =>
    obtain ⟨_, hrunm, -⟩ := run_perform_set hm (Host.denied?_of_memory hm (.write key hash))
    obtain ⟨_, hrunt, -⟩ := run_perform_set ht hnow
    rw [hrunm, hrunt]
    exact ⟨_, _, rfl, rfl, trivial⟩
  | keys start =>
    rw [run_perform_keys hm (Host.denied?_of_memory hm _), run_perform_keys ht hnow]
    refine ⟨_, _, rfl, rfl, m.nodup_keys start, t.nodup_keys start, fun key => ?_⟩
    rw [Content.keys, Content.keys, Table.mem_keys_iff (hnull start rfl), Memory.mem_keys_iff,
      hsim.isBare_iff, ne_eq, hsim.get?_eq_none_iff, not_or, and_assoc]

def inMemory : Host := ⟨FileTree.empty, Refusals.none, [.memory Memory.empty], []⟩

def inDatabase : Host :=
  ⟨FileTree.empty, Refusals.none, [.connection (.own Table.empty) true], []⟩

def inLockedDatabase : Host :=
  { inDatabase with refusals := fun _ _ => some (.unable "database is locked") }

def single (field value : String) : Hash := (∅ : Hash).insert field value

def mergingCalls : List Call :=
  [.set "k.a" (single "x" "1"), .set "k.b" ∅, .set "k.a" ((single "y" "2").insert "x" "3")]

/-- The fields of one key are written in two calls, and another key gets an empty hash. -/
theorem answers_alike_of_merging :
    inMemory.content? 0 = some (.memory Memory.empty) ∧
      inDatabase.content? 0 = some (.table Table.empty) ∧ '\x00' ∉ "k.".toList ∧
      (∀ statement, inDatabase.denied? 0 statement = none) ∧
      (∃ a b, answerAfter 0 mergingCalls (.get "k.a") inMemory = .ok a ∧
        answerAfter 0 mergingCalls (.get "k.a") inDatabase = .ok b ∧
        Alike mergingCalls (.get "k.a") a b) ∧
      ∃ a b, answerAfter 0 mergingCalls (.keys "k.") inMemory = .ok a ∧
        answerAfter 0 mergingCalls (.keys "k.") inDatabase = .ok b ∧
        Alike mergingCalls (.keys "k.") a b := by
  have hnull : '\x00' ∉ "k.".toList := by decide
  have hserved : ∀ statement, inDatabase.denied? 0 statement = none :=
    Host.denied?_eq_none_of_refusals rfl (rfl : inDatabase.content? 0 = some (.table Table.empty))
  refine ⟨rfl, rfl, hnull, hserved, ?_, ?_⟩
  · exact answers_alike rfl rfl mergingCalls (.get "k.a") (fun _ _ => hserved _) nofun
  · refine answers_alike rfl rfl mergingCalls (.keys "k.") (fun _ _ => hserved _)
      fun start hstart => ?_
    cases hstart
    exact hnull

/-- An empty hash is there in memory, and a database neither finds nor lists it. A key with U+0000
is listed by a memory for a start with U+0000, and by no database. A locked database answers
nothing. -/
theorem answers_of_empty_hash :
    (answerAfter 0 [.set "k" ∅] (.get "k") inMemory = .ok (.found (some ∅)) ∧
      answerAfter 0 [.set "k" ∅] (.get "k") inDatabase = .ok (.found none)) ∧
    (answerAfter 0 [.set "k" ∅] (.keys "") inMemory = .ok (.listed ["k"]) ∧
      answerAfter 0 [.set "k" ∅] (.keys "") inDatabase = .ok (.listed [])) ∧
    answerAfter 0 [.set "a\x00b" (single "x" "1")] (.keys "a\x00") inMemory =
        .ok (.listed ["a\x00b"]) ∧
      answerAfter 0 [.set "a\x00b" (single "x" "1")] (.keys "a\x00") inDatabase =
        .ok (.listed []) ∧
      answerAfter 0 [] (.get "k") inMemory = .ok (.found none) ∧
      answerAfter 0 [] (.get "k") inLockedDatabase =
        .error (.store (.refused (.unable "database is locked"))) :=
  ⟨⟨rfl, rfl⟩, ⟨rfl, rfl⟩, rfl, rfl, rfl, rfl⟩

end Store

end ChatCommands
