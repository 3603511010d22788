import ChatCommands.Console
import ChatCommands.Router

/-!
# Answering lines on the console

A shell answers lines with a router and shows the answers. A failure that is meant for the user is
shown; any other failure ends the shell, and so does an item that the console cannot read. A
conversation answers one line after another until the user takes leave or the input ends.
-/

namespace ChatCommands

inductive ExitCode where
  | success
  | failure
  | misuse
deriving DecidableEq

def ExitCode.number : ExitCode → Nat
  | success => 0
  | failure => 1
  | misuse => 2

/-- A router at work on a console, and what has been shown so far. -/
structure Shell where
  site : Site
  console : Console
  -- what has been shown so far, the latest last
  shown : List Shown

abbrev Shelled (α : Type) := ExceptT Failure (StateM Shell) α

namespace Shelled

/-- Show an item, or fail with `markup` if the console cannot read it. -/
def emit (item : Shown) : Shelled Unit := do
  match (← get).console.faultOf item with
  | none => modify fun shell => { shell with shown := shell.shown ++ [item] }
  | some detail => throw (.markup detail)

def attempt {α : Type} (work : Routed α) : Shelled (Except Failure α) :=
  ExceptT.mk fun shell =>
    let (result, site) := work.run.run shell.site
    (.ok result, { shell with site })

end Shelled

namespace Shell

def answer (line : String) : Shelled ExitCode := do
  match ← Shelled.attempt (Router.dispatch line) with
  | .ok value =>
    Shelled.emit (.ofValue value)
    return .success
  | .error failure =>
    if failure.isForUser then
      Shelled.emit (.ofFailure failure)
      return .failure
    else throw failure

def leaveWords : List String := ["exit", "quit"]

def takesLeave (line : String) : Bool := leaveWords.contains (Text.lowerAscii line)

/-- Answer the lines of a conversation. Blanks around a line do not count, and a line without
anything else is passed over. -/
def answerAll : List String → Shelled Unit
  | [] => Shelled.emit .farewellAtEnd
  | line :: lines => do
    let line := Text.trim line
    if takesLeave line then Shelled.emit .farewell
    else
      if line ≠ "" then
        let _ ← answer line
      answerAll lines

def converse (lines : List String) : Shelled Unit := do
  match (← get).site.router.names with
  | .error failure => throw failure
  | .ok names =>
    Shelled.emit (.greeting names)
    answerAll lines

/-- The commands that the registry lists, by name and description. -/
def listCommands : Shelled (List (List String)) := do
  match (← get).site.router.registry with
  | none => return []
  | some registry =>
    match ← Shelled.attempt (Routed.onHost registry.list) with
    | .error failure => throw failure
    | .ok entries => return entries.map fun entry => [entry.name, entry.description]

/-- Do work, and close the registry of the router however the work ends. -/
def closing {α : Type} (work : Shelled α) : Shelled α :=
  ExceptT.mk fun shell =>
    let (result, shell) := work.run.run shell
    let (_, shell) := (Shelled.attempt Router.close).run.run shell
    (result, shell)

end Shell

end ChatCommands
