import ChatCommands.OrderedMap
import ChatCommands.Text.Search

/-!
# Stores of hashes in memory

A store holds hashes, which are maps from fields to texts, under keys. In memory it is a map of maps
that remembers the order of insertion. Setting a hash merges it into the one that is there.
-/

namespace ChatCommands

abbrev Hash := OrderedMap String String

/-- Hashes in memory, by key. -/
structure Memory where
  hashes : OrderedMap String Hash
deriving DecidableEq

namespace Memory

def empty : Memory := ⟨∅⟩

def get? (m : Memory) (key : String) : Option Hash :=
  m.hashes.get? key

@[simp] theorem get?_empty (key : String) : empty.get? key = none := rfl

/-- `set` merges `hash` into the one under `key`. -/
def set (m : Memory) (key : String) (hash : Hash) : Memory :=
  ⟨m.hashes.insert key (((m.get? key).getD ∅).insertAll hash.entries)⟩

/-- `set` leaves the hashes under other keys as they are. -/
theorem get?_set (m : Memory) (key other : String) (hash : Hash) :
    (m.set key hash).get? other =
      if key = other then some (((m.get? key).getD ∅).insertAll hash.entries)
      else m.get? other :=
  OrderedMap.get?_insert m.hashes key other _

def keys (m : Memory) (start : String) : List String :=
  m.hashes.keys.filter fun key => Text.startsWith key start

end Memory

end ChatCommands
