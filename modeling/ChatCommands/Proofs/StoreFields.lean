import ChatCommands.Proofs.StoreContent

/-!
# The fields that a store holds

What a store holds is told by the text in each field under each key. There both kinds of store
change alike: a hash that is written changes its own fields under its own key, and nothing else. The
kinds differ in hashes without fields, of which a table has no row.
-/

namespace ChatCommands

/-! ## Hashes in memory -/

namespace Memory

/-- The text in a field under a key. -/
def field? (m : Memory) (key field : String) : Option String := (m.get? key).bind (·.get? field)

theorem field?_set (m : Memory) (key other : String) (hash : Hash) (field : String) :
    (m.set key hash).field? other field =
      if key = other then (hash.get? field).or (m.field? key field) else m.field? other field := by
  rw [field?, get?_set]
  split
  · rw [Option.bind_some, OrderedMap.get?_insertAll, OrderedMap.lastUnder_entries, field?]
    cases m.get? key <;> rfl
  · rfl

end Memory

/-! ## Rows -/

namespace Row

def isOf (key field : String) (r : Row) : Bool := r.key == key && r.field == field

theorem isOf_iff {key field : String} {r : Row} :
    r.isOf key field = true ↔ r.key = key ∧ r.field = field := by
  simp [isOf]

/-- `put` hides the row with the primary key of the new one, and no other. -/
theorem find?_put (key field : String) (row : Row) (rows : List Row) :
    (put row rows).find? (isOf key field) =
      if row.isOf key field then some row else rows.find? (isOf key field) := by
  induction rows with
  | nil => rw [put, List.find?_cons, List.find?_nil]; cases row.isOf key field <;> rfl
  | cons other rows ih =>
    unfold put
    split
    · -- the row takes the place of one with its primary key
      rename_i hslot
      have hsame : other.isOf key field = row.isOf key field := by
        obtain ⟨hkey, hfield⟩ := sameSlot_iff.1 hslot
        rw [isOf, isOf, hkey, hfield]
      rw [List.find?_cons, List.find?_cons, hsame]
      cases row.isOf key field <;> rfl
    · split
      · rw [List.find?_cons]
        cases row.isOf key field <;> rfl
      · rename_i hslot _
        rw [List.find?_cons, List.find?_cons, ih]
        cases hother : other.isOf key field with
        | false => rfl
        | true =>
          -- the row does not have the primary key of the one that is found first
          have hrow : row.isOf key field = false := by
            rw [Bool.eq_false_iff, ne_eq, isOf_iff]
            rintro ⟨hkey, hfield⟩
            obtain ⟨hkey', hfield'⟩ := isOf_iff.1 hother
            exact hslot (sameSlot_iff.2 ⟨hkey.trans hkey'.symm, hfield.trans hfield'.symm⟩)
          simp [hrow]

theorem nodup_fields {rows : List Row} (hordered : Ordered rows) (key : String) :
    (((rows.filter (·.key == key)).map fun r => (r.field, r.value)).map Prod.fst).Nodup := by
  rw [List.map_map, List.nodup_iff_pairwise_ne, List.pairwise_map]
  refine List.Pairwise.imp_of_mem ?_ (hordered.filter _)
  intro r s hr hs hbefore hfield
  have hkey : r.key = s.key := by
    rw [List.mem_filter, beq_iff_eq] at hr hs
    exact hr.2.trans hs.2.symm
  have hslot := not_sameSlot_of_before hbefore
  rw [sameSlot_iff.2 ⟨hkey, hfield⟩] at hslot
  cases hslot

end Row

/-! ## Tables -/

namespace Table

/-- The text in a field under a key. -/
def field? (t : Table) (key field : String) : Option String := (t.get? key).bind (·.get? field)

variable {key field : String}

theorem get?_eq_none_iff (t : Table) (key : String) :
    t.get? key = none ↔ ∀ row ∈ t.rows, row.key ≠ key := by
  have hrows : t.rows.filter (·.key == key) = [] ↔ ∀ row ∈ t.rows, row.key ≠ key := by
    simp [List.filter_eq_nil_iff]
  rw [← hrows, get?]
  split
  · rename_i hnil
    exact iff_of_true rfl hnil
  · rename_i hcons
    exact iff_of_false (Option.some_ne_none _) hcons

theorem lookup_rows (field : String) (rows : List Row) :
    OrderedMap.lookup field ((rows.filter (·.key == key)).map fun r => (r.field, r.value)) =
      (rows.find? (Row.isOf key field)).map Row.value := by
  induction rows with
  | nil => rfl
  | cons row rows ih =>
    by_cases hkey : row.key = key
    · by_cases hfield : row.field = field <;>
        simp [Row.isOf, hkey, hfield, OrderedMap.lookup, ih]
    · simp [Row.isOf, hkey, ih]

/-- `field?` is the value of the row with the key and the field. -/
theorem field?_eq_find? (t : Table) (key field : String) :
    t.field? key field = (t.rows.find? (Row.isOf key field)).map Row.value := by
  rw [← lookup_rows, field?, get?]
  have hnodup := Row.nodup_fields t.ordered key
  split
  · rename_i hrows
    rw [hrows]
    rfl
  · rw [Option.bind_some, OrderedMap.get?, OrderedMap.entries_ofList hnodup]

theorem field?_put (t : Table) (row : Row) (key field : String) :
    (t.put row).field? key field =
      if row.isOf key field then some row.value else t.field? key field := by
  rw [field?_eq_find?, put, Row.find?_put, field?_eq_find?]
  split <;> rfl

theorem field?_set (t : Table) (key other : String) (hash : Hash) (field : String) :
    (t.set key hash).field? other field =
      if key = other then (hash.get? field).or (t.field? key field) else t.field? other field := by
  rw [set, ← OrderedMap.lastUnder_entries]
  induction hash.entries using List.reverseRecOn with
  | nil => split <;> simp [OrderedMap.lastUnder, *]
  | append_singleton entries entry ih =>
    rw [List.foldl_append, List.foldl_cons, List.foldl_nil, field?_put, ih,
      OrderedMap.lastUnder_append_singleton]
    by_cases hkey : key = other <;> by_cases hfield : entry.1 = field <;>
      simp [Row.isOf, hkey, hfield]

theorem get?_eq_none_iff_field? (t : Table) (key : String) :
    t.get? key = none ↔ ∀ field, t.field? key field = none := by
  constructor
  · intro h field
    rw [field?, h]
    rfl
  · intro h
    rw [get?_eq_none_iff]
    intro row hrow hkey
    have hfield := h row.field
    rw [field?_eq_find?, Option.map_eq_none_iff, List.find?_eq_none] at hfield
    exact hfield row hrow (Row.isOf_iff.2 ⟨hkey, rfl⟩)

/-! ## The search for keys -/

/-- `matchesStart`, which reads up to the first U+0000, is `hasStart` for a start without one. -/
theorem matchesStart_eq_hasStart {start : String} (hnull : '\x00' ∉ start.toList) (key : String) :
    matchesStart start key = hasStart start key := by
  refine Bool.eq_iff_iff.2 ⟨startsWith_of_matchesStart, fun h => ?_⟩
  rw [hasStart, Text.startsWith, List.isPrefixOf_iff_prefix] at h
  obtain ⟨rest, hkey⟩ := h
  have hstart : ∀ c ∈ start.toList, decide (c ≠ '\x00') = true := by
    intro c hc
    rw [decide_eq_true_iff]
    rintro rfl
    exact hnull hc
  rw [matchesStart, beq_iff_eq, ← hkey, List.takeWhile_append_of_pos hstart, ← String.length_toList,
    List.take_left]

theorem nodup_keys (t : Table) (start : String) : (t.keys start).Nodup :=
  OrderedMap.nodup_eraseDups _

theorem mem_keys_iff {start : String} (hnull : '\x00' ∉ start.toList) (t : Table) (key : String) :
    key ∈ t.keys start ↔ hasStart start key = true ∧ t.get? key ≠ none := by
  rw [keys, List.mem_eraseDups, List.mem_filter, matchesStart_eq_hasStart hnull, ne_eq,
    get?_eq_none_iff, List.mem_map]
  push Not
  exact and_comm

end Table

namespace Memory

theorem nodup_keys (m : Memory) (start : String) : (m.keys start).Nodup :=
  m.hashes.nodup_keys.filter _

theorem mem_keys_iff (m : Memory) (start key : String) :
    key ∈ m.keys start ↔ hasStart start key = true ∧ m.get? key ≠ none := by
  have hkey : key ∈ m.hashes.keys ↔ m.get? key ≠ none := by
    rw [← OrderedMap.contains_iff, OrderedMap.contains, Option.isSome_iff_ne_none]
    rfl
  rw [keys, List.mem_filter, hkey]
  exact and_comm

end Memory

end ChatCommands
