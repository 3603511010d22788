import ChatCommands.Command
import ChatCommands.Host

/-!
# Registries

A registry publishes the names and helps of commands in a store, under keys that start with a prefix
of its own. The first command of a name is the one that stays. What is published is read back as
entries, which are checked against their schema because the store may hold anything.
-/

namespace ChatCommands

/-! ## Entries -/

/-- What is published of a command. -/
structure Entry where
  name : String
  description : String
deriving DecidableEq

namespace Entry

/-- The entry with the given fields, `name` and `description`, both of which must be there. -/
def check (entries : List (Document × Document)) : Checked Entry :=
  let name := Schema.field "name" none Schema.text entries
  let description := Schema.field "description" none Schema.text entries
  let closed := Schema.closed ["name", "description"] entries
  ((name.both description).both closed).map fun ((name, description), _) => ⟨name, description⟩

def ofHash (hash : Hash) : Checked Entry :=
  check (hash.entries.map fun (field, value) => (.text field, .text value))

def toHash (e : Entry) : Hash :=
  (OrderedMap.empty.insert "name" e.name).insert "description" e.description

/-- An entry does not change: assigning a field is a violation. -/
def assign (_ : Entry) (field : String) : Checked Entry :=
  (Checked.broken .isFrozen).under (.field field)

end Entry

/-! ## Registries -/

/-- A registry over a store. -/
structure Registry where
  store : StoreId
  keyPrefix : String
deriving DecidableEq

namespace Registry

def defaultPrefix : String := "hubot-commands.registry"

def key (r : Registry) (name : String) : String := r.keyPrefix ++ "." ++ name

def orInvalid {α : Type} : Checked α → Hosted α
  | .ok a => pure a
  | .error violations => throw (.invalid violations)

def isPublished (r : Registry) (name : String) : Hosted Bool := do
  return (← Hosted.getHash r.store (r.key name)).isSome

/-- Write an entry over whatever is there. -/
def publish (r : Registry) (entry : Entry) : Hosted Unit :=
  Hosted.setHash r.store (r.key entry.name) entry.toHash

/-- Publish an entry unless something is published under its name; the result tells whether it was.
The look, `isPublished`, and the writing, `publish`, are two steps of the store. -/
def add (r : Registry) (entry : Entry) : Hosted Bool := do
  if ← r.isPublished entry.name then
    Hosted.note (.alreadyPublished entry.name)
    return false
  else
    r.publish entry
    Hosted.note (.published entry.name)
    return true

def addCommand (r : Registry) (c : Command) : Hosted Bool := r.add ⟨c.name, c.help⟩

def get (r : Registry) (name : String) : Hosted (Option Entry) := do
  match ← Hosted.getHash r.store (r.key name) with
  | none => return none
  | some hash => return some (← orInvalid (Entry.ofHash hash))

/-- The entries under the keys. Keys that hold nothing are left out. -/
def entriesAt (r : Registry) : List String → Hosted (List Entry)
  | [] => return []
  | key :: keys => do
    match ← Hosted.getHash r.store key with
    | none => entriesAt r keys
    | some hash =>
      let entry ← orInvalid (Entry.ofHash hash)
      return entry :: (← entriesAt r keys)

/-- All entries whose keys start with the prefix and a dot, in the order of their names. -/
def list (r : Registry) : Hosted (List Entry) := do
  let keys ← Hosted.keys r.store (r.keyPrefix ++ ".")
  let entries ← r.entriesAt keys
  return entries.mergeSort fun a b => !Text.before b.name a.name

def close (r : Registry) : Hosted Unit := Hosted.close r.store

end Registry

end ChatCommands
