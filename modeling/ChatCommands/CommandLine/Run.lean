import ChatCommands.CommandLine.Arguments
import ChatCommands.CommandLine.Shell
import ChatCommands.Log
import ChatCommands.Settings.File
import ChatCommands.Startup

/-!
# Runs of the program

A run reads the arguments, loads the settings, builds the router, does the task and closes the
registry. Failures of the settings are shown; a failure that is neither of the settings nor meant
for the user ends the run as it is.
-/

namespace ChatCommands

namespace CommandLine

/-- What a run finds when it starts. -/
structure Machine where
  files : FileTree
  refusals : Refusals
  readers : Readers
  console : Console

/-- The machine with these files. Its databases refuse what `FileTree.refusals` tells, its readers
are `Readers.bundled`, and its console is `lenient`. -/
def Machine.ofFiles (files : FileTree) : Machine :=
  ⟨files, files.refusals, Readers.bundled, Console.lenient⟩

def defaultConfig : String := ".allen/config.yaml"

/-- What a run leaves behind. -/
structure Outcome where
  code : ExitCode
  failure : Option Failure
  shown : List Shown
  log : List String
  host : Host
  setup : LogSetup

/-! ## Tasks -/

def perform (task : Task) (lines : List String) : Shelled ExitCode :=
  match task with
  | .exec line => Shell.closing (Shell.answer line)
  | .list => do
    let rows ← Shell.closing Shell.listCommands
    Shelled.emit (.ofCommands rows)
    return .success
  | .converse => do
    Shell.closing (Shell.converse lines)
    return .success

/-- Load the settings at a path and open their router. -/
def openRouter (catalogue : Catalogue) (readers : Readers) (location : Location) :
    Hosted Router := do
  match Settings.loadWith readers (← get).files location with
  | .error failure => throw failure
  | .ok settings => settings.openRouter catalogue

/-- The end of a run with a failure: one of kind `config` is shown, any other is not. -/
def endWith (failure : Failure) (shown : List Shown) : ExitCode × Option Failure × List Shown :=
  if failure.kind = .config then (.misuse, none, shown ++ [.ofConfigFailure failure])
  else (.failure, some failure, shown)

/-- Open the router of the settings at a path and do a task. -/
def performAt (catalogue : Catalogue) (readers : Readers) (console : Console) (task : Task)
    (location : Location) (lines : List String) (host : Host) :
    (ExitCode × Option Failure × List Shown) × Host :=
  match (openRouter catalogue readers location).run.run host with
  | (.error failure, host) => (endWith failure [], host)
  | (.ok router, host) =>
    match (perform task lines).run.run ⟨⟨router, host⟩, console, []⟩ with
    | (.ok code, shell) => ((code, none, shell.shown), shell.site.host)
    | (.error failure, shell) => ((.failure, some failure, shell.shown), shell.site.host)

/-! ## Runs -/

/-- Whether a path leads to a directory. An empty one leads nowhere. -/
def isDirectory (files : FileTree) (path : String) : Bool :=
  path ≠ "" && (files.locate (Location.ofText path)).isDirectory

/-- The lines of an input. An empty line is asked for again and does not count as one. -/
def inputLines (input : String) : List String :=
  (Text.splitAt (Text.unifyBreaks input) '\n').filter (· ≠ "")

def run (catalogue : Catalogue) (machine : Machine) (setup : LogSetup) (arguments : List String)
    (input : String) : Outcome :=
  let host := Host.start machine.files machine.refusals
  match Request.read arguments with
  | .help => ⟨.success, none, [], [], host, setup⟩
  | .misuse => ⟨.misuse, none, [], [], host, setup⟩
  | .invocation i =>
    let path := i.configPath.getD defaultConfig
    if path.toList.contains '\x00' then ⟨.failure, some .nullInPath, [], [], host, setup⟩
    else if i.configPath.isSome && isDirectory machine.files path then
      ⟨.misuse, none, [], [], host, setup⟩
    else
      let setup := setup.configure i.isVerbose
      let ((code, failure, shown), host) :=
        performAt catalogue machine.readers machine.console i.task (Location.ofText path)
          (inputLines input) host
      ⟨code, failure, shown, setup.pass host.events, host, setup⟩

end CommandLine

end ChatCommands
