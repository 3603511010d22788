import ChatCommands.CommandLine.Run

/-!
# The program

The thin layer between the pure program and its surroundings: it reads the file of the settings and
the input, has the run computed, and prints what the run has shown. Databases of a registry live as
long as the run, and the lines of a conversation are read before the first of them is answered.
-/

namespace ChatCommands

namespace CommandLine

/-- A tree of files with what is found at a path. -/
def treeAt (path : String) : IO FileTree := do
  let names := (Location.ofText path).key
  try
    let content ← IO.FS.readBinFile path
    return FileTree.empty.place names (.file content.toList)
  catch
    | .noFileOrDirectory .. => return FileTree.empty
    | _ => return FileTree.empty.place names .directory

/-- Print an item. -/
def print : Shown → IO Unit
  | .text content _ => IO.println content
  | .markup content _ => IO.println content
  | .table title columns rows => do
    if let some title := title then
      IO.println title
    for row in columns :: rows do
      IO.println (Text.join " | " row)

/-- The path of the settings and the input that a request needs. -/
def surroundings (request : Request) : IO (FileTree × String) := do
  match request with
  | .invocation i =>
    let files ← treeAt (i.configPath.getD defaultConfig)
    let input ←
      match i.task with
      | .converse => (← IO.getStdin).readToEnd
      | _ => pure ""
    return (files, input)
  | _ => return (FileTree.empty, "")

/-- Print what a run leaves behind; the result is its code. -/
def report (o : Outcome) : IO UInt32 := do
  for line in o.log do
    IO.eprintln line
  for item in o.shown do
    print item
  if let some failure := o.failure then
    IO.eprintln failure.message
  return UInt32.ofNat o.code.number

end CommandLine

end ChatCommands

open ChatCommands CommandLine

/-- Run the program on the arguments. -/
def main (arguments : List String) : IO UInt32 := do
  let (files, input) ← surroundings (Request.read arguments)
  report (run Catalogue.program (Machine.ofFiles files) LogSetup.initial arguments input)
