import ChatCommands.Host
import ChatCommands.Proofs.OrderedMaps

/-!
# The part of a store under a start of keys

What a store holds under the keys that begin with a text is a store again, its part. Looking up a
key with that start, and listing the keys with it, ask for no more than the part; writing under such
a key writes in the part, and writing under any other key leaves it alone.
-/

namespace ChatCommands

/-- `Text.startsWith` with the start first. -/
def hasStart (start key : String) : Bool := Text.startsWith key start

/-! ## Hashes in memory -/

namespace Memory

/-- The hashes under the keys that begin with `start`. -/
def part (start : String) (m : Memory) : Memory :=
  ⟨m.hashes.restrict (hasStart start)⟩

variable {start key : String}

theorem get?_part (h : hasStart start key = true) (m : Memory) :
    (m.part start).get? key = m.get? key :=
  OrderedMap.get?_restrict _ h m.hashes

theorem keys_part (start : String) (m : Memory) : (m.part start).keys start = m.keys start := by
  have hkeys : (m.part start).keys start = (m.hashes.keys.filter (hasStart start)).filter
      (hasStart start) := congrArg (List.filter (hasStart start)) (OrderedMap.keys_restrict _ _)
  rw [hkeys, List.filter_filter]
  simp only [Bool.and_self]
  rfl

theorem part_set (h : hasStart start key = true) (m : Memory) (hash : Hash) :
    (m.set key hash).part start = (m.part start).set key hash := by
  rw [set, part, OrderedMap.restrict_insert_of_pos _ h, set, get?_part h]
  rfl

theorem part_set_of_not (h : hasStart start key = false) (m : Memory) (hash : Hash) :
    (m.set key hash).part start = m.part start := by
  rw [set, part, OrderedMap.restrict_insert_of_neg _ h, part]

end Memory

/-! ## Rows -/

namespace Row

theorem put_eq_cons {row : Row} {rows : List Row} (h : ∀ r ∈ rows, row.before r = true) :
    put row rows = row :: rows := by
  cases rows with
  | nil => rfl
  | cons other rows =>
    have hbefore := h other (by simp)
    rw [put, if_neg (by simp [not_sameSlot_of_before hbefore]), if_pos hbefore]

/-- `put` commutes with `filter` on rows in order. -/
theorem filter_put_of_pos (test : String → Bool) (row : Row) (h : test row.key = true)
    {rows : List Row} (hrows : Ordered rows) :
    (put row rows).filter (test ·.key) = put row (rows.filter (test ·.key)) := by
  induction rows with
  | nil => simp [put, h]
  | cons other rows ih =>
    obtain ⟨hother, hlater⟩ := List.pairwise_cons.1 hrows
    cases hslot : row.sameSlot other with
    | true =>
      have htest : test other.key = true := (sameSlot_iff.1 hslot).1 ▸ h
      simp [put, hslot, h, htest]
    | false =>
      cases hbefore : row.before other with
      | false =>
        cases htest : test other.key <;> simp [put, hslot, hbefore, htest, ih hlater]
      | true =>
        cases htest : test other.key with
        | true => simp [put, hslot, hbefore, h, htest]
        | false =>
          -- `row` goes in front of `other`, which is taken out, and so of all that stay
          have hall : ∀ r ∈ rows.filter (test ·.key), row.before r = true :=
            fun r hr => before_trans hbefore (hother r ((List.mem_filter.1 hr).1))
          rw [List.filter_cons_of_neg (by simp [htest]), put_eq_cons hall]
          simp [put, hslot, hbefore, h, htest]

theorem filter_put_of_neg (test : String → Bool) (row : Row) (h : test row.key = false)
    (rows : List Row) : (put row rows).filter (test ·.key) = rows.filter (test ·.key) := by
  induction rows with
  | nil => simp [put, h]
  | cons other rows ih =>
    cases hslot : row.sameSlot other with
    | true =>
      have htest : test other.key = false := (sameSlot_iff.1 hslot).1 ▸ h
      simp [put, hslot, h, htest]
    | false =>
      cases hbefore : row.before other <;> cases htest : test other.key <;>
        simp [put, hslot, hbefore, htest, h, ih]

end Row

/-! ## Tables -/

theorem startsWith_of_matchesStart {start key : String} (h : Table.matchesStart start key = true) :
    hasStart start key = true := by
  rw [Table.matchesStart, beq_iff_eq] at h
  rw [hasStart, Text.startsWith, List.isPrefixOf_iff_prefix, ← h]
  exact (List.take_prefix _ _).trans (List.takeWhile_prefix _)

namespace Table

/-- The rows under the keys that begin with `start`. -/
def part (start : String) (t : Table) : Table :=
  ⟨t.rows.filter (hasStart start ·.key), t.ordered.filter _⟩

variable {start key : String}

theorem get?_part (h : hasStart start key = true) (t : Table) :
    (t.part start).get? key = t.get? key := by
  have hrows : (t.part start).rows.filter (·.key == key) = t.rows.filter (·.key == key) := by
    rw [part, List.filter_filter]
    refine List.filter_congr fun row _ => ?_
    by_cases hkey : row.key = key
    · simp [hkey, h]
    · simp [hkey]
  rw [get?, hrows, get?]

theorem keys_part (start : String) (t : Table) : (t.part start).keys start = t.keys start := by
  have hrows : ((t.part start).rows.map Row.key).filter (matchesStart start) =
      (t.rows.map Row.key).filter (matchesStart start) := by
    rw [part, List.filter_map, List.filter_map, List.filter_filter]
    refine congrArg (List.map Row.key) (List.filter_congr fun row _ => ?_)
    cases hmatches : matchesStart start row.key with
    | false => simp [hmatches]
    | true => simp [hmatches, startsWith_of_matchesStart hmatches]
  rw [keys, hrows, keys]

theorem part_put (h : hasStart start key = true) (t : Table) (field value : String) :
    (t.put ⟨key, field, value⟩).part start = (t.part start).put ⟨key, field, value⟩ := by
  have hrows := Row.filter_put_of_pos (hasStart start) ⟨key, field, value⟩ h t.ordered
  simp only [put, part, hrows]

theorem part_set (h : hasStart start key = true) (t : Table) (hash : Hash) :
    (t.set key hash).part start = (t.part start).set key hash := by
  rw [set, set]
  induction hash.entries generalizing t with
  | nil => rfl
  | cons entry entries ih => rw [List.foldl_cons, ih, part_put h, List.foldl_cons]

theorem part_set_of_not (h : hasStart start key = false) (t : Table) (hash : Hash) :
    (t.set key hash).part start = t.part start := by
  rw [set]
  induction hash.entries generalizing t with
  | nil => rfl
  | cons entry entries ih =>
    have hrows := Row.filter_put_of_neg (hasStart start) ⟨key, entry.1, entry.2⟩ h t.rows
    rw [List.foldl_cons, ih]
    simp only [put, part, hrows]

theorem get?_put_of_ne {other : String} (hne : key ≠ other) (t : Table) (field value : String) :
    (t.put ⟨key, field, value⟩).get? other = t.get? other := by
  have hrows := Row.filter_put_of_neg (· == other) ⟨key, field, value⟩ (by simpa using hne) t.rows
  rw [get?, put, hrows, get?]

theorem get?_set_of_ne {other : String} (hne : key ≠ other) (t : Table) (hash : Hash) :
    (t.set key hash).get? other = t.get? other := by
  rw [set]
  induction hash.entries generalizing t with
  | nil => rfl
  | cons entry entries ih => rw [List.foldl_cons, ih, get?_put_of_ne hne]

/-- The rows of a key after `set`: each field of the hash is `put` among those that were there. -/
theorem rows_set (t : Table) (key : String) (hash : Hash) :
    (t.set key hash).rows.filter (·.key == key) =
      hash.entries.foldl (fun rows entry => Row.put ⟨key, entry.1, entry.2⟩ rows)
        (t.rows.filter (·.key == key)) := by
  rw [set]
  induction hash.entries generalizing t with
  | nil => rfl
  | cons entry entries ih =>
    have hrows := Row.filter_put_of_pos (· == key) ⟨key, entry.1, entry.2⟩ (by simp) t.ordered
    rw [List.foldl_cons, ih, List.foldl_cons, put, hrows]

theorem rows_eq_nil {t : Table} (h : t.get? key = none) : t.rows.filter (·.key == key) = [] := by
  rw [get?] at h
  split at h
  · assumption
  · cases h

end Table

end ChatCommands
