import ChatCommands.Event
import ChatCommands.FileTree

/-!
# The host

What the program works on outside of its commands: the files, the stores that it has opened, and the
events so far. A store is either hashes in memory or a connection to a database, which several
connections may share when it is a file; a closed connection refuses all work, while hashes in
memory are merely emptied by closing.

A database may refuse a statement although the connection is open: it is locked by another program
or read-only, the disk is full, or a text of the statement has no UTF-8 form. Which statements are
refused is up to the surroundings (`Refusals`).
-/

namespace ChatCommands

/-! ## Stores -/

inductive Database where
  -- the one in a file, under the names that lead to it
  | file (names : List String)
  | own (table : Table)
deriving DecidableEq

/-- The names of the file of a database; `[]` for a connection's own. -/
def Database.names : Database → List String
  | file names => names
  | own _ => []

/-- What a database is asked to do. -/
inductive Statement where
  | create
  | read (key : String)
  | write (key : String) (hash : Hash)
  | search (start : String)
deriving DecidableEq

/-- A `write` of a hash without fields has nothing to do, as the hash is no row of a table. -/
def Statement.isIdle : Statement → Bool
  | write _ hash => hash.entries.isEmpty
  | _ => false

/-- Which statements a database refuses, and why. The database is given by the names of its file. -/
abbrev Refusals := List String → Statement → Option Refusal

def Refusals.none : Refusals := fun _ _ => Option.none

/-- The names of the file beside a database that ends in `-wal`, which is its log. -/
def logNames (names : List String) : List String :=
  names.dropLast ++ [names.getLastD "" ++ "-wal"]

/-- What the databases of a tree of files refuse: everything, if `logNames` leads to a directory. -/
def FileTree.refusals (t : FileTree) : Refusals := fun names _ =>
  if names.isEmpty || t.get? (logNames names) ≠ some .directory then none
  else match t.get? names with
  | some (.database _) => some (.unable "unable to open database file")
  | _ => some (.unable "disk I/O error")

inductive Store where
  | memory (content : Memory)
  | connection (database : Database) (isOpen : Bool)
deriving DecidableEq

abbrev StoreId := Nat

/-! ## Hosts -/

/-- The files, the stores and the events so far. -/
structure Host where
  files : FileTree
  refusals : Refusals
  -- the stores, in the order in which they were opened
  stores : List Store
  events : List Event

abbrev Hosted (α : Type) := ExceptT Failure (StateM Host) α

namespace Host

def start (files : FileTree) (refusals : Refusals) : Host := ⟨files, refusals, [], []⟩

/-- Why a database refuses a statement, if it does. One that `isIdle` is not refused. -/
def refusal? (h : Host) (database : Database) (statement : Statement) : Option Refusal :=
  if statement.isIdle then none else h.refusals database.names statement

def tableOf (h : Host) : Database → Table
  | .own table => table
  | .file names =>
    match h.files.get? names with
    | some (.database table) => table
    | _ => Table.empty

def noted (h : Host) (event : Event) : Host :=
  { h with events := h.events ++ [event] }

def withStore (h : Host) (id : StoreId) (store : Store) : Host :=
  { h with stores := h.stores.set id store }

/-- The host with a table in the place of the one of a database that the store `id` is connected to.
-/
def withTable (h : Host) (id : StoreId) (table : Table) : Database → Host
  | .own _ => h.withStore id (.connection (.own table) true)
  | .file names => { h with files := h.files.put names (.database table) }

end Host

namespace Hosted

def note (event : Event) : Hosted Unit := modify (·.noted event)

def refuse {α : Type} (failure : StoreFailure) : Hosted α := throw (.store failure)

/-- Have a database carry out a statement, or fail with `refused`. What the statement does is
written where it is asked for. -/
def ask (database : Database) (statement : Statement) : Hosted Unit := do
  match (← get).refusal? database statement with
  | none => pure ()
  | some refusal => refuse (.refused refusal)

/-! ## Opening -/

def addStore (store : Store) : Hosted StoreId := do
  let id := (← get).stores.length
  modify fun h => { h with stores := h.stores ++ [store] }
  note (.opened id)
  return id

def openMemory : Hosted StoreId := addStore (.memory Memory.empty)

/-- The path that stands for a database of the connection's own. -/
def ownDatabase : String := ":memory:"

/-- Make a database of a file that holds nothing. If it refuses, it leaves an empty file. -/
def createDatabase (names : List String) : Hosted Unit := do
  let h ← get
  match h.refusal? (.file names) .create with
  | none => set { h with files := h.files.put names (.database Table.empty) }
  | some refusal =>
    set { h with files := h.files.put names (.file []) }
    refuse (.refused refusal)

/-- Make sure that there is a database at `location`, and the directories above it; the result is
the names that lead to it. Nothing is written outside of the working directory. -/
def ensureDatabase (location : Location) : Hosted (List String) := do
  let files := (← get).files
  if location.isAbsolute then refuse .cannotOpen
  else match files.ensureDirectory location.parent.names.reverse with
  | .error failure => refuse failure
  | .ok files =>
    modify fun h => { h with files }
    match files.locate location with
    | .vacant names =>
      createDatabase names
      return names
    | .node names (.file []) =>
      createDatabase names
      return names
    | .node names (.database _) =>
      ask (.file names) .create
      return names
    | .node _ (.file _) => refuse .notADatabase
    | _ => refuse .cannotOpen

/-- Open a connection to the database at `path`. -/
def openDatabase (path : String) : Hosted StoreId := do
  let location := Location.ofText path
  if location.hasNull then throw .nullInPath
  else if location.text = ownDatabase then
    ask (.own Table.empty) .create
    addStore (.connection (.own Table.empty) true)
  else
    let names ← ensureDatabase location
    addStore (.connection (.file names) true)

/-! ## Using -/

def getHash (id : StoreId) (key : String) : Hosted (Option Hash) := do
  let h ← get
  match h.stores[id]? with
  | some (.memory content) => return content.get? key
  | some (.connection database true) =>
    ask database (.read key)
    return (h.tableOf database).get? key
  | _ => refuse .closed

/-- Merge `hash` into the one under `key`. -/
def setHash (id : StoreId) (key : String) (hash : Hash) : Hosted Unit := do
  let h ← get
  match h.stores[id]? with
  | some (.memory content) => set (h.withStore id (.memory (content.set key hash)))
  | some (.connection database true) =>
    ask database (.write key hash)
    set (h.withTable id ((h.tableOf database).set key hash) database)
  | _ => refuse .closed

/-- The keys that begin with `start`. -/
def keys (id : StoreId) (start : String) : Hosted (List String) := do
  let h ← get
  match h.stores[id]? with
  | some (.memory content) => return content.keys start
  | some (.connection database true) =>
    ask database (.search start)
    return (h.tableOf database).keys start
  | _ => refuse .closed

def close (id : StoreId) : Hosted Unit := do
  let h ← get
  match h.stores[id]? with
  | some (.memory _) => set (h.withStore id (.memory Memory.empty))
  | some (.connection database _) => set (h.withStore id (.connection database false))
  | none => pure ()
  note (.closed id)

end Hosted

end ChatCommands
