import ChatCommands.Failure
import ChatCommands.Location
import ChatCommands.Store.Table

/-!
# Trees of files

The files that the program sees: regular files with their bytes, databases with their rows, and
directories. A node is held under the names that lead to it from the working directory, which is
itself a directory and the top of the tree; a node outside of it is held under its path as written.
-/

namespace ChatCommands

inductive Node where
  | directory
  | file (content : List UInt8)
  | database (table : Table)
deriving DecidableEq

structure FileTree where
  -- the nodes below the top, under the names that lead to them
  nodes : OrderedMap (List String) Node
deriving DecidableEq

/-- What a path leads to. -/
inductive Found where
  -- nothing, though all directories on the way are there
  | vacant (names : List String)
  -- nothing, and not all directories on the way are there
  | missing
  -- the way leads through something that is no directory
  | blocked
  | above
  -- a node, with the names that lead to it from the top
  | node (names : List String) (node : Node)
deriving DecidableEq

def Found.isDirectory : Found → Bool
  | .node _ .directory => true
  | .above => true
  | _ => false

namespace FileTree

def empty : FileTree := ⟨∅⟩

/-- The node under the names. The top is a directory. -/
def get? (t : FileTree) (names : List String) : Option Node :=
  if names.isEmpty then some .directory else t.nodes.get? names

def put (t : FileTree) (names : List String) (node : Node) : FileTree :=
  ⟨t.nodes.insert names node⟩

/-- The tree with a directory under each start of the names that has no node. -/
def putDirectories (t : FileTree) (above : List String) : List String → FileTree
  | [] => t
  | name :: names =>
    let here := above ++ [name]
    let t := if (t.get? here).isSome then t else t.put here .directory
    putDirectories t here names

/-- The tree with a node under the names, and directories on the way to it. -/
def place (t : FileTree) (names : List String) (node : Node) : FileTree :=
  (t.putDirectories [] names.dropLast).put names node

/-- Follow names from a place on, `..` to the directory above. Nothing is known of what else the
directories above the working directory hold. -/
def follow (t : FileTree) : Found → List String → Found
  | here, [] => here
  | .node spot .directory, name :: names =>
    if name = ".." then
      follow t (if spot.isEmpty then .above else .node spot.dropLast .directory) names
    else
      let there := spot ++ [name]
      match t.get? there with
      | some node => follow t (.node there node) names
      | none => follow t (.vacant there) names
  | .node _ _, _ :: _ => .blocked
  | .blocked, _ :: _ => .blocked
  | .above, name :: names =>
    if name = ".." then follow t .above names else .missing
  | _, _ :: _ => .missing

def find (t : FileTree) (names : List String) : Found :=
  follow t (.node [] .directory) names

/-- The node that is held under the `key` of the path, or else what its names lead to one by one. An
absolute path starts at a directory above the working directory. -/
def locate (t : FileTree) (l : Location) : Found :=
  match t.get? l.key with
  | some node => .node l.key node
  | none => if l.isAbsolute then t.follow .above l.names else t.find l.names

/-! ## Making directories -/

/-- Make sure that names lead to a directory, making it and those above it as need be. The names are
`reversed`: the last one comes first. -/
def ensureDirectory (t : FileTree) : (reversed : List String) → Except StoreFailure FileTree
  | [] => .ok t
  | name :: above =>
    let names := (name :: above).reverse
    let path := Text.join "/" names
    match t.find names with
    | .node _ .directory => .ok t
    | .above => .ok t
    | .node _ _ => .error (.parentExists path)
    | .blocked => .error (.notADirectory path)
    | .vacant there => .ok (t.put there .directory)
    | .missing => do
      let t ← ensureDirectory t above
      match t.find names with
      | .vacant there => return t.put there .directory
      | .node _ .directory => return t
      | .node _ _ => throw (.parentExists path)
      | _ => throw (.notADirectory path)

/-! ## Regular files -/

/-- The names of the regular files, in the order of their written paths. -/
def files (t : FileTree) : List String :=
  let regular := t.nodes.entries.filterMap fun (names, node) =>
    match node with
    | .directory => none
    | _ => some (Text.join "/" names)
  regular.mergeSort fun a b => !Text.before b a

end FileTree

end ChatCommands
