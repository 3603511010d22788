import ChatCommands.Proofs.RegistryIsolation
import ChatCommands.Proofs.StoreFields

/-!
# Entries in a store

A hash is an entry when it has the two fields of an entry and no other (`ofHash_eq_ok_iff`). So a
registry that publishes an entry under a key, be it for the first time or over another entry, finds
that entry there (`entryIn_set_self`), and the entries under all other names stay as they are.
-/

namespace ChatCommands

/-! ## Hashes that are entries -/

namespace Entry

/-- The fields of a hash as the entries of a record. -/
def recordOf (entries : List (String × String)) : List (Document × Document) :=
  entries.map fun (field, value) => (.text field, .text value)

theorem field?_recordOf (name : String) (entries : List (String × String)) :
    Document.field? name (recordOf entries) =
      (OrderedMap.lookup name entries).map Document.text := by
  induction entries with
  | nil => rfl
  | cons entry entries ih =>
    obtain ⟨field, value⟩ := entry
    rw [recordOf] at ih
    by_cases h : field = name <;> simp [recordOf, Document.field?, OrderedMap.lookup, h, ih]

theorem field_eq_ok_iff {name value : String} {hash : Hash} :
    Schema.field name none Schema.text (recordOf hash.entries) = .ok value ↔
      hash.get? name = some value := by
  simp only [Schema.field, field?_recordOf, OrderedMap.get?]
  cases OrderedMap.lookup name hash.entries with
  | none => exact iff_of_false (by intro h; cases h) (by intro h; cases h)
  | some text =>
    have htext : (Schema.text (.text text)).under (.field name) = .ok text := rfl
    simp only [Option.map_some, htext, Except.ok.injEq, Option.some.injEq]

theorem closed_eq_ok_iff {declared : List String} {hash : Hash} :
    Schema.closed declared (recordOf hash.entries) = .ok () ↔
      ∀ field, hash.get? field ≠ none → field ∈ declared := by
  have hkeys : (∀ field, hash.get? field ≠ none → field ∈ declared) ↔
      ∀ field ∈ hash.keys, field ∈ declared := by
    simp only [← OrderedMap.contains_iff, OrderedMap.contains, Option.isSome_iff_ne_none]
  have hviolations : (recordOf hash.entries).filterMap (Schema.keyViolation? declared ·.1) = [] ↔
      ∀ field ∈ hash.keys, field ∈ declared := by
    simp [recordOf, OrderedMap.keys, Schema.keyViolation?, List.filterMap_eq_nil_iff]
  rw [hkeys, ← hviolations, Schema.closed]
  split
  · rename_i h
    exact iff_of_true rfl h
  · rename_i h
    exact iff_of_false (by intro hok; cases hok) h

theorem both_eq_ok_iff {α β : Type} {first : Checked α} {second : Checked β} {a : α} {b : β} :
    first.both second = .ok (a, b) ↔ first = .ok a ∧ second = .ok b := by
  cases first <;> cases second <;> simp [Checked.both]

theorem map_eq_ok_iff {α β : Type} {checked : Checked α} {f : α → β} {b : β} :
    checked.map f = .ok b ↔ ∃ a, checked = .ok a ∧ f a = b := by
  cases checked <;> simp [Except.map]

/-- A hash is an entry if it has the fields `name` and `description`, and no other. -/
theorem ofHash_eq_ok_iff {hash : Hash} {e : Entry} :
    ofHash hash = .ok e ↔
      hash.get? "name" = some e.name ∧ hash.get? "description" = some e.description ∧
        ∀ field, hash.get? field ≠ none → field ∈ ["name", "description"] := by
  have hcheck : ofHash hash = check (recordOf hash.entries) := rfl
  simp only [hcheck, check, map_eq_ok_iff, Prod.exists, both_eq_ok_iff, field_eq_ok_iff]
  constructor
  · rintro ⟨name, description, _, ⟨⟨hname, hdescription⟩, hclosed⟩, rfl⟩
    exact ⟨hname, hdescription, closed_eq_ok_iff.1 hclosed⟩
  · rintro ⟨hname, hdescription, hclosed⟩
    exact ⟨e.name, e.description, (), ⟨⟨hname, hdescription⟩, closed_eq_ok_iff.2 hclosed⟩, rfl⟩

theorem get?_toHash (e : Entry) (field : String) :
    e.toHash.get? field =
      if "description" = field then some e.description
      else if "name" = field then some e.name else none := by
  rw [toHash, OrderedMap.get?_insert, OrderedMap.get?_insert]
  rfl

end Entry

/-! ## Fields of contents -/

namespace Content

/-- The text in a field under a key. -/
def field? (c : Content) (key field : String) : Option String := (c.get? key).bind (·.get? field)

/-- The content can change: it is not `nowhere`. -/
def IsPlace : Content → Prop
  | nowhere => False
  | _ => True

theorem isPlace_set {c : Content} (hplace : c.IsPlace) (key : String) (hash : Hash) :
    (c.set key hash).IsPlace := by
  cases c with
  | memory m => trivial
  | table t => trivial
  | nowhere => exact hplace

theorem field?_set {c : Content} (hplace : c.IsPlace) (key other : String) (hash : Hash)
    (field : String) :
    (c.set key hash).field? other field =
      if key = other then (hash.get? field).or (c.field? key field) else c.field? other field := by
  cases c with
  | memory m => exact m.field?_set key other hash field
  | table t => exact t.field?_set key other hash field
  | nowhere => exact hplace.elim

theorem nodup_keys (c : Content) (start : String) : (c.keys start).Nodup := by
  cases c with
  | memory m => exact m.nodup_keys start
  | table t => exact t.nodup_keys start
  | nowhere => exact List.nodup_nil

/-- The keys that are listed for a start without U+0000 are those with the start that hold
something. -/
theorem mem_keys_iff {start : String} (hnull : '\x00' ∉ start.toList) (c : Content) (key : String) :
    key ∈ c.keys start ↔ hasStart start key = true ∧ c.get? key ≠ none := by
  cases c with
  | memory m => exact m.mem_keys_iff start key
  | table t => exact t.mem_keys_iff hnull key
  | nowhere => exact iff_of_false List.not_mem_nil fun h => h.2 rfl

end Content

/-! ## Entries of a registry -/

namespace Registry

variable {r : Registry} {c : Content}

/-- What a registry reads under a name, if there is something. -/
def entryIn (r : Registry) (c : Content) (name : String) : Option (Checked Entry) :=
  (c.get? (r.key name)).map Entry.ofHash

theorem entryIn_eq_none_iff {name : String} :
    r.entryIn c name = none ↔ c.get? (r.key name) = none := Option.map_eq_none_iff

theorem key_injective {name other : String} (h : r.key name = r.key other) : name = other := by
  have hlist := congrArg String.toList h
  simp only [key, String.toList_append] at hlist
  exact String.toList_inj.1 (List.append_cancel_left hlist)

theorem exists_eq_key {key : String} (h : hasStart r.start key = true) :
    ∃ name, key = r.key name := by
  obtain ⟨rest, hrest⟩ := hasStart_iff.1 h
  refine ⟨String.ofList rest, String.toList_inj.1 ?_⟩
  have hkey : r.key (String.ofList rest) = r.start ++ String.ofList rest := rfl
  rw [hkey, String.toList_append, String.toList_ofList, hrest]

/-- An entry that is set is read back, also when it is set over another one. -/
theorem entryIn_set_self (hplace : c.IsPlace) (e : Entry)
    (hbefore : ∀ checked, r.entryIn c e.name = some checked → ∃ old, checked = .ok old) :
    r.entryIn (c.set (r.key e.name) e.toHash) e.name = some (.ok e) := by
  have hfield := Content.field?_set hplace (r.key e.name) (r.key e.name) e.toHash
  simp only [Entry.get?_toHash, if_true] at hfield
  -- no field but those of an entry was there
  have hold : ∀ field, c.field? (r.key e.name) field ≠ none → field ∈ ["name", "description"] := by
    intro field hne
    cases hget : c.get? (r.key e.name) with
    | none => exact absurd (by rw [Content.field?, hget]; rfl) hne
    | some hash =>
      obtain ⟨old, hok⟩ := hbefore (Entry.ofHash hash) (by rw [entryIn, hget]; rfl)
      rw [Content.field?, hget] at hne
      exact (Entry.ofHash_eq_ok_iff.1 hok).2.2 field hne
  cases hget : (c.set (r.key e.name) e.toHash).get? (r.key e.name) with
  | none =>
    -- something is there, as the name has been written
    have hname := hfield "name"
    rw [Content.field?, hget] at hname
    cases hname
  | some hash =>
    simp only [Content.field?, hget, Option.bind_some] at hfield
    have hok : Entry.ofHash hash = .ok e := by
      rw [Entry.ofHash_eq_ok_iff, hfield, hfield]
      refine ⟨rfl, rfl, fun field hne => ?_⟩
      by_cases hdescription : "description" = field
      · simp [hdescription]
      · by_cases hname : "name" = field
        · simp [hname]
        · rw [hfield, if_neg hdescription, if_neg hname, Option.none_or] at hne
          exact hold field hne
    rw [entryIn, hget, Option.map_some, hok]

theorem entryIn_set_of_ne {name other : String} (hne : name ≠ other) (hash : Hash) :
    r.entryIn (c.set (r.key name) hash) other = r.entryIn c other := by
  rw [entryIn, Content.get?_set_of_ne fun h => hne (key_injective h), entryIn]

/-- `get` answers `entryIn`, if the look is not denied. -/
theorem run_get_eq {h : Host} (hopen : h.content? r.store = some c) {name : String}
    (hserved : h.denied? r.store (.read (r.key name)) = none) :
    (r.get name).run.run h =
      match r.entryIn c name with
      | none => (.ok none, h)
      | some (.ok e) => (.ok (some e), h)
      | some (.error violations) => (.error (.invalid violations), h) := by
  simp only [get, run_run_bind, Hosted.run_getHash hserved hopen, entryIn]
  cases c.get? (r.key name) with
  | none => rfl
  | some hash =>
    simp only [run_run_bind, Option.map_some]
    cases Entry.ofHash hash <;> rfl

end Registry

end ChatCommands
