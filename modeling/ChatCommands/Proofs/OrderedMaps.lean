import ChatCommands.OrderedMap
import Mathlib.Data.List.Basic
import Mathlib.Data.List.Induction

/-!
# Ordered maps

What a map holds is told by `get?`, and its entries are its keys with what `get?` finds under them
(`entries_eq_filterMap`). A map that is built by inserting entries one after another has its keys in
the order of their first entries (`keys_ofList`), each with the value of its last one
(`get?_ofList`). `restrict` keeps the entries whose keys pass a test.
-/

namespace ChatCommands

namespace OrderedMap

universe u v
variable {α : Type u} {β : Type v} [DecidableEq α]

/-! ## Entries -/

theorem lookup_of_mem {entries : List (α × β)} (h : (entries.map Prod.fst).Nodup) {key : α}
    {value : β} (hmem : (key, value) ∈ entries) : lookup key entries = some value := by
  induction entries with
  | nil => simp at hmem
  | cons entry rest ih =>
    obtain ⟨other, old⟩ := entry
    rw [List.map_cons, List.nodup_cons] at h
    rcases List.mem_cons.1 hmem with heq | hrest
    · cases heq
      simp [lookup]
    · have hne : other ≠ key := by
        rintro rfl
        exact h.1 (List.mem_map.2 ⟨_, hrest, rfl⟩)
      rw [lookup, if_neg hne, ih h.2 hrest]

theorem mem_of_lookup {key : α} {value : β} {entries : List (α × β)}
    (h : lookup key entries = some value) : (key, value) ∈ entries := by
  induction entries with
  | nil => cases h
  | cons entry entries ih =>
    obtain ⟨other, old⟩ := entry
    by_cases hkey : other = key
    · rw [lookup, if_pos hkey] at h
      cases h
      exact hkey ▸ List.mem_cons_self
    · rw [lookup, if_neg hkey] at h
      exact List.mem_cons_of_mem _ (ih h)

theorem get?_eq_some_iff {m : OrderedMap α β} {key : α} {value : β} :
    m.get? key = some value ↔ (key, value) ∈ m.entries :=
  ⟨mem_of_lookup, lookup_of_mem m.nodup_keys⟩

/-- Maps whose entries are a permutation of each other hold the same under every key. -/
theorem get?_eq_of_perm {m n : OrderedMap α β} (h : m.entries.Perm n.entries) (key : α) :
    m.get? key = n.get? key := by
  refine Option.ext fun value => ?_
  rw [get?_eq_some_iff, get?_eq_some_iff, h.mem_iff]

theorem entries_eq_filterMap (m : OrderedMap α β) :
    m.entries = m.keys.filterMap fun key => (m.get? key).map fun value => (key, value) := by
  have hself : ∀ entry ∈ m.entries,
      (m.get? entry.1).map (fun value => (entry.1, value)) = some (id entry) := by
    intro entry hentry
    rw [get?_eq_some_iff.2 hentry]
    rfl
  rw [keys, List.filterMap_map]
  exact ((List.filterMap_eq_map_iff_forall_eq_some.2 hself).trans (List.map_id _)).symm

/-- The same with a function `f` that gives the value of each key. -/
theorem entries_eq_map {m : OrderedMap α β} {f : α → β}
    (h : ∀ key ∈ m.keys, m.get? key = some (f key)) :
    m.entries = m.keys.map fun key => (key, f key) := by
  rw [m.entries_eq_filterMap]
  refine List.filterMap_eq_map_iff_forall_eq_some.2 fun key hkey => ?_
  rw [h key hkey]
  rfl

/-- Maps with the same `keys` that agree under each of them are equal. -/
theorem ext_get? {m n : OrderedMap α β} (hkeys : m.keys = n.keys)
    (hget : ∀ key ∈ m.keys, m.get? key = n.get? key) : m = n := by
  apply ext
  rw [m.entries_eq_filterMap, n.entries_eq_filterMap, ← hkeys]
  exact List.filterMap_congr fun key hkey => by rw [hget key hkey]

theorem entries_eq_nil_iff (m : OrderedMap α β) : m.entries = [] ↔ ∀ key, m.get? key = none := by
  constructor
  · intro h key
    rw [get?, h]
    rfl
  · intro h
    refine List.eq_nil_iff_forall_not_mem.2 fun entry hentry => ?_
    have hvalue := get?_eq_some_iff.2 hentry
    cases (h entry.1).symm.trans hvalue

/-- A new key goes behind all others. -/
theorem entries_insert_of_not_mem {m : OrderedMap α β} {key : α} (h : key ∉ m.keys) (value : β) :
    (m.insert key value).entries = m.entries ++ [(key, value)] := by
  rw [entries_insert]
  unfold keys at h
  generalize m.entries = entries at h ⊢
  induction entries with
  | nil => rfl
  | cons entry rest ih =>
    obtain ⟨other, old⟩ := entry
    rw [List.map_cons, List.mem_cons, not_or] at h
    rw [put, if_neg (Ne.symm h.1), ih h.2, List.cons_append]

/-! ## The last entry wins, the first place stays -/

/-- The value of the last entry under `key`. -/
def lastUnder (key : α) (entries : List (α × β)) : Option β :=
  ((entries.filter (·.1 == key)).getLast?).map Prod.snd

theorem insertAll_append (m : OrderedMap α β) (front back : List (α × β)) :
    m.insertAll (front ++ back) = (m.insertAll front).insertAll back :=
  List.foldl_append

theorem ofList_append_singleton (entries : List (α × β)) (entry : α × β) :
    ofList (entries ++ [entry]) = (ofList entries).insert entry.1 entry.2 :=
  insertAll_append ∅ entries [entry]

theorem eraseDups_append_singleton (keys : List α) (key : α) :
    (keys ++ [key]).eraseDups =
      if key ∈ keys.eraseDups then keys.eraseDups else keys.eraseDups ++ [key] := by
  rw [List.eraseDups_append]
  by_cases h : key ∈ keys <;> simp [List.removeAll, List.mem_eraseDups, h, List.eraseDups_cons]

/-- The keys of `ofList entries` stand in the order of their first entries. -/
theorem keys_ofList (entries : List (α × β)) :
    (ofList entries).keys = (entries.map Prod.fst).eraseDups := by
  induction entries using List.reverseRecOn with
  | nil => rfl
  | append_singleton entries entry ih =>
    rw [ofList_append_singleton, keys_insert, ih, List.map_append, List.map_singleton,
      eraseDups_append_singleton]

theorem lastUnder_append_singleton (key : α) (entries : List (α × β)) (entry : α × β) :
    lastUnder key (entries ++ [entry]) =
      if entry.1 = key then some entry.2 else lastUnder key entries := by
  by_cases h : entry.1 = key <;> simp [lastUnder, List.filter_append, h]

section
variable {key : α} {earlier later : List (α × β)}

theorem lastUnder_append (key : α) (earlier later : List (α × β)) :
    lastUnder key (earlier ++ later) = (lastUnder key later).or (lastUnder key earlier) := by
  simp [lastUnder, List.filter_append, List.getLast?_append, Option.map_or]

theorem lastUnder_eq_none_iff : lastUnder key later = none ↔ key ∉ later.map Prod.fst := by
  rw [lastUnder, Option.map_eq_none_iff, List.getLast?_eq_none_iff, List.filter_eq_nil_iff]
  constructor
  · intro h hkey
    obtain ⟨entry, hentry, heq⟩ := List.mem_map.1 hkey
    exact h entry hentry (beq_iff_eq.2 heq)
  · intro h entry hentry heq
    exact h (List.mem_map.2 ⟨entry, hentry, beq_iff_eq.1 heq⟩)

theorem lastUnder_singleton (key other : α) (value : β) :
    lastUnder key [(other, value)] = if other = key then some value else none := by
  by_cases h : other = key <;> simp [lastUnder, h]

theorem lastUnder_append_cons (h : key ∉ later.map Prod.fst) (value : β) :
    lastUnder key (earlier ++ (key, value) :: later) = some value := by
  rw [lastUnder_append, ← List.singleton_append, lastUnder_append, lastUnder_singleton, if_pos rfl,
    lastUnder_eq_none_iff.2 h]
  rfl

/-- An entry with a later one under its key never counts for `lastUnder`. -/
theorem lastUnder_replace {other : α} (h : other ∈ later.map Prod.fst) (key : α) (old new : β) :
    lastUnder key (earlier ++ (other, old) :: later) =
      lastUnder key (earlier ++ (other, new) :: later) := by
  simp only [lastUnder_append, ← List.singleton_append (l := later), lastUnder_singleton]
  by_cases hkey : other = key
  · rw [hkey] at h
    cases hlater : lastUnder key later with
    | none => exact absurd h (lastUnder_eq_none_iff.1 hlater)
    | some value => rfl
  · rw [if_neg hkey, if_neg hkey]

end

theorem get?_ofList (entries : List (α × β)) (key : α) :
    (ofList entries).get? key = lastUnder key entries := by
  induction entries using List.reverseRecOn with
  | nil => rfl
  | append_singleton entries entry ih =>
    rw [ofList_append_singleton, get?_insert, lastUnder_append_singleton, ih]

/-- `insertAll` hides what the map holds under the keys of the entries. -/
theorem get?_insertAll (m : OrderedMap α β) (entries : List (α × β)) (key : α) :
    (m.insertAll entries).get? key = (lastUnder key entries).or (m.get? key) := by
  induction entries using List.reverseRecOn with
  | nil => rfl
  | append_singleton entries entry ih =>
    rw [insertAll_append, insertAll_cons, insertAll_nil, get?_insert, lastUnder_append_singleton,
      ih]
    split <;> rfl

theorem entries_ofList {entries : List (α × β)} (h : (entries.map Prod.fst).Nodup) :
    (ofList entries).entries = entries := by
  induction entries using List.reverseRecOn with
  | nil => rfl
  | append_singleton entries entry ih =>
    rw [List.map_append, List.map_singleton, List.nodup_append] at h
    obtain ⟨hnodup, -, hnew⟩ := h
    have hkeys : entry.1 ∉ (ofList entries).keys := by
      rw [keys, ih hnodup]
      exact fun hmem => hnew _ hmem _ (List.mem_singleton_self _) rfl
    rw [ofList_append_singleton, entries_insert_of_not_mem hkeys, ih hnodup]

theorem nodup_eraseDups (keys : List α) : keys.eraseDups.Nodup := by
  have hkeys := keys_ofList (keys.map fun key => (key, ()))
  rw [List.map_map, Function.comp_def, List.map_id'] at hkeys
  exact hkeys ▸ (ofList _).nodup_keys

/-- No key occurs twice in `m.entries`, so the last entry under a key is its only one. -/
theorem lastUnder_entries (m : OrderedMap α β) (key : α) :
    lastUnder key m.entries = m.get? key := by
  rw [← get?_ofList, get?, get?, entries_ofList m.nodup_keys]

/-! ## Restricting -/

/-- The entries of a map whose keys pass a test. -/
def restrict (test : α → Bool) (m : OrderedMap α β) : OrderedMap α β :=
  ⟨m.entries.filter (test ·.1), m.nodup_keys.sublist (List.filter_sublist.map Prod.fst)⟩

theorem lookup_filter {test : α → Bool} {key : α} (h : test key = true)
    (entries : List (α × β)) : lookup key (entries.filter (test ·.1)) = lookup key entries := by
  induction entries with
  | nil => rfl
  | cons entry entries ih =>
    obtain ⟨other, value⟩ := entry
    by_cases hkey : other = key
    · subst hkey
      simp [lookup, h]
    · cases htest : test other <;> simp [lookup, hkey, htest, ih]

theorem get?_restrict (test : α → Bool) {key : α} (h : test key = true) (m : OrderedMap α β) :
    (m.restrict test).get? key = m.get? key :=
  lookup_filter h m.entries

omit [DecidableEq α] in
theorem keys_restrict (test : α → Bool) (m : OrderedMap α β) :
    (m.restrict test).keys = m.keys.filter test := by
  simp [restrict, keys, List.filter_map, Function.comp_def]

theorem filter_put_of_pos {test : α → Bool} {key : α} (h : test key = true) (value : β)
    (entries : List (α × β)) :
    (put key value entries).filter (test ·.1) = put key value (entries.filter (test ·.1)) := by
  induction entries with
  | nil => simp [put, h]
  | cons entry entries ih =>
    obtain ⟨other, old⟩ := entry
    by_cases hkey : other = key
    · subst hkey
      simp [put, h]
    · cases htest : test other <;> simp [put, hkey, htest, ih]

theorem filter_put_of_neg {test : α → Bool} {key : α} (h : test key = false) (value : β)
    (entries : List (α × β)) :
    (put key value entries).filter (test ·.1) = entries.filter (test ·.1) := by
  induction entries with
  | nil => simp [put, h]
  | cons entry entries ih =>
    obtain ⟨other, old⟩ := entry
    by_cases hkey : other = key
    · subst hkey
      simp [put, h]
    · cases htest : test other <;> simp [put, hkey, htest, ih]

theorem restrict_insert_of_pos (test : α → Bool) {key : α} (h : test key = true)
    (m : OrderedMap α β) (value : β) :
    (m.insert key value).restrict test = (m.restrict test).insert key value :=
  ext (filter_put_of_pos h value m.entries)

theorem restrict_insert_of_neg (test : α → Bool) {key : α} (h : test key = false)
    (m : OrderedMap α β) (value : β) : (m.insert key value).restrict test = m.restrict test :=
  ext (filter_put_of_neg h value m.entries)

end OrderedMap

end ChatCommands
