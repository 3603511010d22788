/-!
# Maps that remember the order of insertion

A finite map whose keys keep the order in which they were first inserted. Inserting under a key that
is present replaces the value and leaves the key where it stands. The view of a map is its list of
entries; no key occurs in it twice.
-/

namespace ChatCommands

universe u v w

/-- A finite map with distinct keys in the order of their first insertion. -/
structure OrderedMap (α : Type u) (β : Type v) where
  entries : List (α × β)
  nodup_keys : (entries.map Prod.fst).Nodup

namespace OrderedMap

variable {α : Type u} {β : Type v} {γ : Type w}

@[ext] theorem ext {m n : OrderedMap α β} (h : m.entries = n.entries) : m = n := by
  cases m; cases n; cases h; rfl

instance [DecidableEq α] [DecidableEq β] : DecidableEq (OrderedMap α β) := fun m n =>
  if h : m.entries = n.entries then isTrue (ext h) else isFalse fun e => h (e ▸ rfl)

/-! ## The empty map and the keys -/

def empty : OrderedMap α β := ⟨[], List.nodup_nil⟩

instance : EmptyCollection (OrderedMap α β) := ⟨empty⟩

instance : Inhabited (OrderedMap α β) := ⟨empty⟩

@[simp] theorem entries_empty : (∅ : OrderedMap α β).entries = [] := rfl

def keys (m : OrderedMap α β) : List α := m.entries.map Prod.fst

def values (m : OrderedMap α β) : List β := m.entries.map Prod.snd

def isEmpty (m : OrderedMap α β) : Bool := m.entries.isEmpty

@[simp] theorem keys_empty : (∅ : OrderedMap α β).keys = [] := rfl

variable [DecidableEq α]

/-! ## Looking up -/

/-- The value of the first entry under `key`. -/
def lookup (key : α) : List (α × β) → Option β
  | [] => none
  | (other, value) :: rest => if other = key then some value else lookup key rest

def get? (m : OrderedMap α β) (key : α) : Option β := lookup key m.entries

def contains (m : OrderedMap α β) (key : α) : Bool := (m.get? key).isSome

@[simp] theorem get?_empty (key : α) : (∅ : OrderedMap α β).get? key = none := rfl

theorem lookup_eq_none_iff (key : α) (entries : List (α × β)) :
    lookup key entries = none ↔ key ∉ entries.map Prod.fst := by
  induction entries with
  | nil => simp [lookup]
  | cons entry rest ih =>
    obtain ⟨other, value⟩ := entry
    by_cases h : other = key
    · simp [lookup, h]
    · simp [lookup, h, ih, Ne.symm h]

theorem contains_iff (m : OrderedMap α β) (key : α) : m.contains key = true ↔ key ∈ m.keys := by
  have h := lookup_eq_none_iff key m.entries
  simp only [contains, get?, keys]
  cases hl : lookup key m.entries with
  | none => simpa using h.1 hl
  | some value =>
    have : ¬ key ∉ m.entries.map Prod.fst := fun hn => by simp [h.2 hn] at hl
    simpa using this

/-! ## Inserting -/

/-- The entries with `value` under `key`: in place of the old entry, or behind all others. -/
def put (key : α) (value : β) : List (α × β) → List (α × β)
  | [] => [(key, value)]
  | (other, old) :: rest =>
    if other = key then (key, value) :: rest else (other, old) :: put key value rest

theorem map_fst_put (key : α) (value : β) (entries : List (α × β)) :
    (put key value entries).map Prod.fst =
      if key ∈ entries.map Prod.fst then entries.map Prod.fst
      else entries.map Prod.fst ++ [key] := by
  induction entries with
  | nil => rfl
  | cons entry rest ih =>
    obtain ⟨other, old⟩ := entry
    by_cases h : other = key
    · simp [put, h]
    · simp only [put, if_neg h, List.map_cons, ih, List.mem_cons, Ne.symm h, false_or]
      split <;> simp

theorem nodup_put (key : α) (value : β) {entries : List (α × β)}
    (h : (entries.map Prod.fst).Nodup) : ((put key value entries).map Prod.fst).Nodup := by
  rw [map_fst_put]
  split
  · exact h
  · rename_i hk
    refine List.nodup_append.2 ⟨h, by simp, ?_⟩
    intro a ha b hb
    rcases List.mem_singleton.1 hb with rfl
    exact fun e => hk (e ▸ ha)

/-- The map with `value` under `key`. A key that is present keeps its place. -/
def insert (m : OrderedMap α β) (key : α) (value : β) : OrderedMap α β :=
  ⟨put key value m.entries, nodup_put key value m.nodup_keys⟩

@[simp] theorem entries_insert (m : OrderedMap α β) (key : α) (value : β) :
    (m.insert key value).entries = put key value m.entries := rfl

theorem keys_insert (m : OrderedMap α β) (key : α) (value : β) :
    (m.insert key value).keys = if key ∈ m.keys then m.keys else m.keys ++ [key] :=
  map_fst_put key value m.entries

theorem lookup_put (key other : α) (value : β) (entries : List (α × β)) :
    lookup other (put key value entries) =
      if key = other then some value else lookup other entries := by
  induction entries with
  | nil => simp [put, lookup]
  | cons entry rest ih =>
    obtain ⟨head, old⟩ := entry
    by_cases h : head = key
    · subst h
      by_cases ho : head = other <;> simp [put, lookup, ho]
    · by_cases ho : head = other
      · subst ho
        simp [put, lookup, h, Ne.symm h]
      · simp [put, lookup, h, ho, ih]

/-- `insert` changes what one key holds and nothing else. -/
theorem get?_insert (m : OrderedMap α β) (key other : α) (value : β) :
    (m.insert key value).get? other = if key = other then some value else m.get? other :=
  lookup_put key other value m.entries

/-- The map with all entries of the list, later ones over earlier ones. -/
def insertAll (m : OrderedMap α β) (entries : List (α × β)) : OrderedMap α β :=
  entries.foldl (fun m entry => m.insert entry.1 entry.2) m

def ofList (entries : List (α × β)) : OrderedMap α β :=
  insertAll ∅ entries

@[simp] theorem insertAll_nil (m : OrderedMap α β) : m.insertAll [] = m := rfl

@[simp] theorem insertAll_cons (m : OrderedMap α β) (entry : α × β) (entries : List (α × β)) :
    m.insertAll (entry :: entries) = (m.insert entry.1 entry.2).insertAll entries := rfl

/-! ## Changing and removing -/

def erase (m : OrderedMap α β) (key : α) : OrderedMap α β :=
  ⟨m.entries.filter (fun entry => entry.1 ≠ key), by
    have h := m.nodup_keys
    exact h.sublist (List.filter_sublist.map Prod.fst)⟩

end OrderedMap

end ChatCommands
