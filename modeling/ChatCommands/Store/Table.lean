import ChatCommands.Store.Memory

/-!
# Stores of hashes in a table

In a database a hash is a number of rows, one for each field, and a key is there as long as it has a
row. The rows are kept in the order of the primary key, which is the key and the field; so a hash
comes back with its fields in order, and the keys come in order. A `Table` carries the proof that
its rows are in order. The search for keys compares only the part of a key in front of the first
U+0000.
-/

namespace ChatCommands

/-! ## Rows -/

/-- A row: one field of one hash. -/
structure Row where
  key : String
  field : String
  value : String
deriving DecidableEq

namespace Row

/-- Whether two rows have the same primary key. -/
def sameSlot (r s : Row) : Bool := r.key == s.key && r.field == s.field

/-- The order of the primary keys: by `key`, then by `field`. -/
def before (r s : Row) : Bool :=
  Text.before r.key s.key || (r.key == s.key && Text.before r.field s.field)

theorem sameSlot_iff {r s : Row} : r.sameSlot s = true ↔ r.key = s.key ∧ r.field = s.field := by
  simp [sameSlot]

theorem before_iff {r s : Row} :
    r.before s = true ↔ r.key < s.key ∨ r.key = s.key ∧ r.field < s.field := by
  simp [before, Text.before]

theorem before_trans {r s t : Row} (h : r.before s = true) (h' : s.before t = true) :
    r.before t = true := by
  rw [before_iff] at h h' ⊢
  rcases h with h | ⟨hkey, h⟩
  · rcases h' with h' | ⟨hkey', _⟩
    · exact .inl (String.lt_trans h h')
    · exact .inl (hkey' ▸ h)
  · rcases h' with h' | ⟨hkey', h'⟩
    · exact .inl (hkey ▸ h')
    · exact .inr ⟨hkey.trans hkey', String.lt_trans h h'⟩

theorem not_sameSlot_of_before {r s : Row} (h : r.before s = true) : r.sameSlot s = false := by
  rw [Bool.eq_false_iff, ne_eq, sameSlot_iff]
  rintro ⟨hkey, hfield⟩
  rw [before_iff, hkey, hfield] at h
  rcases h with h | ⟨_, h⟩ <;> exact String.lt_irrefl _ h

theorem before_of_not_before {r s : Row} (hslot : r.sameSlot s = false)
    (h : r.before s = false) : s.before r = true := by
  rw [Bool.eq_false_iff, ne_eq, sameSlot_iff] at hslot
  rw [Bool.eq_false_iff, ne_eq, before_iff, not_or] at h
  rw [before_iff]
  -- the order of texts is total, so what is not before is after or the same
  have hle : s.key ≤ r.key := String.not_lt.1 h.1
  by_cases hkey : r.key = s.key
  · have hfield : s.field ≤ r.field := String.not_lt.1 fun hlt => h.2 ⟨hkey, hlt⟩
    refine .inr ⟨hkey.symm, Decidable.byContradiction fun hgt => ?_⟩
    exact hslot ⟨hkey, String.le_antisymm (String.not_lt.1 hgt) hfield⟩
  · refine .inl (Decidable.byContradiction fun hgt => ?_)
    exact hkey (String.le_antisymm (String.not_lt.1 hgt) hle)

/-! ## Rows in order -/

/-- The rows with `row` in the place of one with the same primary key, or else in its place in the
order. -/
def put (row : Row) : List Row → List Row
  | [] => [row]
  | other :: rows =>
    if row.sameSlot other then row :: rows
    else if row.before other then row :: other :: rows
    else other :: put row rows

/-- Rows in the order of the primary key, no two of them with the same one. -/
def Ordered (rows : List Row) : Prop := rows.Pairwise fun r s => r.before s = true

theorem mem_put {row r : Row} {rows : List Row} (h : r ∈ put row rows) :
    r = row ∨ r ∈ rows := by
  induction rows with
  | nil => exact .inl (List.mem_singleton.1 h)
  | cons other rows ih =>
    unfold put at h
    split at h
    · rcases List.mem_cons.1 h with h | h
      · exact .inl h
      · exact .inr (List.mem_cons_of_mem _ h)
    · split at h
      · exact List.mem_cons.1 h
      · rcases List.mem_cons.1 h with h | h
        · exact .inr (h ▸ List.mem_cons_self)
        · exact (ih h).imp_right (List.mem_cons_of_mem _)

theorem before_congr {r s t : Row} (hslot : r.sameSlot s = true) : r.before t = s.before t := by
  obtain ⟨hkey, hfield⟩ := sameSlot_iff.1 hslot
  rw [before, before, hkey, hfield]

theorem ordered_put (row : Row) {rows : List Row} (h : Ordered rows) :
    Ordered (put row rows) := by
  induction rows with
  | nil => exact List.pairwise_singleton _ _
  | cons other rows ih =>
    obtain ⟨hother, hrows⟩ := List.pairwise_cons.1 h
    unfold put
    split
    · -- `row` takes the place of `other`
      rename_i hslot
      refine List.pairwise_cons.2 ⟨fun r hr => ?_, hrows⟩
      rw [before_congr hslot]
      exact hother r hr
    · rename_i hslot
      split
      · rename_i hbefore
        refine List.pairwise_cons.2 ⟨fun r hr => ?_, h⟩
        rcases List.mem_cons.1 hr with rfl | hr
        · exact hbefore
        · exact before_trans hbefore (hother r hr)
      · rename_i hbefore
        refine List.pairwise_cons.2 ⟨fun r hr => ?_, ih hrows⟩
        rcases mem_put hr with rfl | hr
        · exact before_of_not_before (by simpa using hslot) (by simpa using hbefore)
        · exact hother r hr

end Row

/-! ## Tables -/

/-- Rows in the order of `Row.before`. -/
structure Table where
  rows : List Row
  ordered : Row.Ordered rows
deriving DecidableEq

namespace Table

def empty : Table := ⟨[], List.Pairwise.nil⟩

/-- The hash under `key`; `none` if the key has no rows. -/
def get? (t : Table) (key : String) : Option Hash :=
  match t.rows.filter (·.key == key) with
  | [] => none
  | rows => some (OrderedMap.ofList (rows.map fun r => (r.field, r.value)))

def put (t : Table) (row : Row) : Table := ⟨row.put t.rows, Row.ordered_put row t.ordered⟩

/-- `put` a row for each field of the hash. -/
def set (t : Table) (key : String) (hash : Hash) : Table :=
  hash.entries.foldl (fun t entry => t.put ⟨key, entry.1, entry.2⟩) t

/-- The characters of `key` in front of its first U+0000, cut to the length of `start`, are `start`.
-/
def matchesStart (start key : String) : Bool :=
  ((key.toList.takeWhile (· ≠ '\x00')).take start.length) == start.toList

/-- The keys that `matchesStart`, each once. -/
def keys (t : Table) (start : String) : List String :=
  ((t.rows.map Row.key).filter (matchesStart start)).eraseDups

end Table

end ChatCommands
