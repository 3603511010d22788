import ChatCommands.Bundled.Echo
import ChatCommands.Bundled.Schedule
import ChatCommands.Router
import ChatCommands.Samples

/-!
# Catalogues of importable modules

Commands are named by import paths of the form `module:attr`. A catalogue lists the modules that can
be imported with their members; a path leads to a member that can be called, and a class that it
leads to must be a class of commands. Every other path is refused for a stated reason.
-/

namespace ChatCommands

/-! ## Members of modules -/

inductive CalleeKind where
  | ofClass
  | ofFunction
  | ofObject
deriving DecidableEq

/-- Something that can be called to make a command. -/
structure Callee where
  kind : CalleeKind
  -- the module in which it, or the class of the object, is defined
  home : String
  -- its name, or that of the class of the object
  name : String
  outcome : Except Failure Product

/-- A member of a module. A member that is `None` counts as none. -/
inductive Member where
  | nothing
  | value
  | otherClass
  -- a class of commands, a function, or an object that can be called
  | callee (callee : Callee)

structure ImportModule where
  name : String
  isPackage : Bool
  members : List (String × Member)

abbrev Catalogue := List ImportModule

namespace Catalogue

/-! ## Resolving a path -/

def module? (c : Catalogue) (name : String) : Option ImportModule :=
  c.find? fun m => m.name == name

/-- The module that the parts lead to, behind the module `above`. Each module on the way has to be
there; `whole` is the dotted name that is imported. -/
def importFrom (c : Catalogue) (whole : String) :
    (above : Option ImportModule) → List String → Except ConfigFailure (Option ImportModule)
  | above, [] => .ok above
  | above, part :: parts =>
    let name :=
      match above with
      | none => part
      | some m => m.name ++ "." ++ part
    match c.module? name with
    | some m => importFrom c whole (some m) parts
    | none =>
      let parent :=
        match above with
        | some m => if m.isPackage then none else some m.name
        | none => none
      .error (.cannotImport whole name parent)

/-- Import a module by its dotted name. One that starts with a dot is relative to no module. -/
def importModule (c : Catalogue) (name : String) : Except Failure ImportModule :=
  if Text.startsWith name "." then .error (.relativeModule name)
  else
    match c.importFrom name none (Text.splitAt name '.') with
    | .ok (some m) => .ok m
    | .ok none => .error (.config (.cannotImport name name none))
    | .error failure => .error (.config failure)

def memberOf (m : ImportModule) (name : String) : Member :=
  ((m.members.find? fun entry => entry.1 == name).map Prod.snd).getD .nothing

/-- What an import path leads to. The path is cut at its first colon, and neither part is empty. -/
def resolve (c : Catalogue) (path : String) : Except Failure Callee := do
  let malformed : Failure := .config (.malformedPath path)
  match Text.cutAt path ':' with
  | (_, none) => throw malformed
  | (moduleName, some name) =>
    if moduleName = "" || name = "" then throw malformed
    else
      let m ← c.importModule moduleName
      match memberOf m name with
      | .nothing => throw (.config (.noMember moduleName name))
      | .value => throw (.config (.notCallable path))
      | .otherClass => throw (.config (.notACommand path))
      | .callee callee => return callee

/-! ## The catalogue of the program -/

def values (names : List String) : List (String × Member) := names.map fun name => (name, .value)

/-- Members that are classes of other things than commands. -/
def classes (names : List String) : List (String × Member) :=
  names.map fun name => (name, .otherClass)

def commandClass (home name : String) (outcome : Except Failure Product) : String × Member :=
  (name, .callee ⟨.ofClass, home, name, outcome⟩)

def function (home name : String) (outcome : Except Failure Product) : String × Member :=
  (name, .callee ⟨.ofFunction, home, name, outcome⟩)

/-- A function of one argument. A call does not give it. -/
def functionOf (home name argument : String) : String × Member :=
  function home name (.error (.missingArgument name argument))

/-- A member that is an object which can be called. -/
def object (name home className : String) (outcome : Except Failure Product) : String × Member :=
  (name, .callee ⟨.ofObject, home, className, outcome⟩)

/-- A call that makes `None`. -/
def nothingMade : Except Failure Product := .ok (.object "NoneType" none)

def made (command : Command) : Except Failure Product := .ok (.command command)

def common : List (String × Member) :=
  values ["__name__", "__doc__", "__package__", "__loader__", "__spec__", "__file__", "__cached__",
    "__builtins__", "__dict__", "__annotations__"] ++ classes ["__class__"]

/-- A module with members of its own besides the common ones. -/
def moduleOf (name : String) (members : List (String × Member)) : ImportModule :=
  ⟨name, false, members ++ common⟩

def packageOf (name : String) (members : List (String × Member)) : ImportModule :=
  ⟨name, true, members ++ common ++ values ["__path__"]⟩

/-- A module that holds others and has no file of its own. -/
def folderOf (name : String) (members : List String) : ImportModule :=
  ⟨name, true, values members ++
    values ["__name__", "__package__", "__loader__", "__spec__", "__dict__", "__annotations__",
      "__path__"] ++ classes ["__class__"]⟩

/-- The class `Command`, which is abstract. -/
def baseCommand : String × Member :=
  commandClass "allen.commands.command" "Command" (.error .abstractCommand)

def scheduleCommand : String × Member :=
  commandClass "allen.commands.handlers.schedule" "ScheduleCommand" (made Schedule.command)

def echoCommand : String × Member :=
  commandClass "allen.commands.handlers.echo" "EchoCommand" (made Echo.command)

/-- The function that marks what has to be overridden. -/
def markAbstract : String × Member := functionOf "abc" "abstractmethod" "funcobj"

/-- The type of factories, which can be called like the class it abbreviates. -/
def factoryType : String × Member :=
  object "CommandFactory" "collections.abc" "_CallableGenericAlias"
    (.error (.raised .type
      "Can't instantiate abstract class Callable with abstract method __call__"))

/-- The functions that the settings are read and put to use with. -/
def settingsFunctions : List (String × Member) :=
  [functionOf "allen.config.settings" "load_config" "path",
    functionOf "allen.config.settings" "load_command_factory" "import_path",
    functionOf "allen.config.settings" "build_registry" "settings",
    functionOf "allen.config.settings" "build_router" "config"]

def setupFunctions : List (String × Member) :=
  [function "allen.cli.bootstrap" "configure_logging" nothingMade,
    function "allen.cli.bootstrap" "default_config_file"
      (.ok (.object "PosixPath" (some "config.yaml"))),
    functionOf "allen.cli.bootstrap" "load_router" "config_file"]

def commandModules : Catalogue :=
  [packageOf "allen.commands"
      (baseCommand ::
        classes ["CommandError", "ParseError", "ValidationError", "Parameter", "ParameterHelp",
          "CommandEntry", "CommandRegistry", "InMemoryRegistryStore", "RegistryStore",
          "SqliteRegistryStore", "CommandRouter"] ++
        values ["__all__", "command", "errors", "handlers", "parameter", "registry", "router"]),
    moduleOf "allen.commands.command"
      ([baseCommand, markAbstract] ++
        classes ["ABC", "Any", "ParseError", "ValidationError", "Parameter"] ++
        values ["annotations", "inspect", "logging", "_LOGGER", "HELP_KEYWORD"]),
    moduleOf "allen.commands.errors"
      (classes ["CommandError", "ParseError", "ValidationError"] ++ values ["annotations"]),
    moduleOf "allen.commands.parameter"
      (markAbstract ::
        classes ["ABC", "Any", "BaseModel", "ConfigDict", "ParameterHelp", "Parameter"] ++
        values ["annotations", "weakref", "TYPE_CHECKING"]),
    moduleOf "allen.commands.registry"
      (baseCommand ::
        classes ["Path", "Protocol", "BaseModel", "ConfigDict", "CommandEntry", "RegistryStore",
          "InMemoryRegistryStore", "SqliteRegistryStore", "CommandRegistry"] ++
        values ["annotations", "logging", "sqlite3", "_LOGGER", "DEFAULT_KEY_PREFIX",
          "CREATE_SQL"]),
    moduleOf "allen.commands.router"
      ([baseCommand, factoryType] ++
        classes ["Callable", "Any", "ParseError", "CommandRegistry", "CommandRouter"] ++
        values ["annotations", "logging", "_LOGGER"]),
    packageOf "allen.commands.handlers"
      ([echoCommand, scheduleCommand] ++ values ["__all__", "echo", "schedule"]),
    moduleOf "allen.commands.handlers.echo"
      ([baseCommand, echoCommand] ++ classes ["Parameter", "TextParameter"] ++
        values ["annotations"]),
    moduleOf "allen.commands.handlers.schedule"
      ([baseCommand, scheduleCommand] ++
        classes ["datetime", "Any", "ParseError", "Parameter", "DateTimeParameter",
          "NoteParameter"] ++ values ["annotations"])]

/-- The modules around the settings and the command line. -/
def programModules : Catalogue :=
  [folderOf "allen" ["cli", "commands", "config"],
    packageOf "allen.config"
      (settingsFunctions ++
        classes ["AllenConfig", "ConfigError", "RegistryBackend", "RegistrySettings"] ++
        values ["__all__", "settings"]),
    moduleOf "allen.config.settings"
      ([baseCommand, factoryType,
          functionOf "allen.config.settings" "_read_config_mapping" "path"] ++ settingsFunctions ++
        classes ["StrEnum", "Path", "BaseModel", "ConfigDict", "ValidationError",
          "CommandRegistry", "InMemoryRegistryStore", "SqliteRegistryStore", "CommandRouter",
          "RegistryBackend", "RegistrySettings", "AllenConfig", "ConfigError"] ++
        values ["annotations", "importlib", "json", "yaml", "DEFAULT_KEY_PREFIX",
          "DEFAULT_COMMANDS"]),
    folderOf "allen.cli" ["bootstrap", "cli"],
    moduleOf "allen.cli.bootstrap"
      (setupFunctions ++
        [functionOf "allen.config.settings" "load_config" "path",
          functionOf "allen.config.settings" "build_router" "config"] ++
        classes ["Path", "RichHandler", "CommandRouter"] ++
        values ["annotations", "logging", "PACKAGE_LOGGER"]),
    moduleOf "allen.cli.cli"
      ([function "allen.cli.bootstrap" "configure_logging" nothingMade,
          functionOf "allen.cli.bootstrap" "load_router" "config_file",
          object "app" "typer.main" "Typer" nothingMade,
          object "ConfigFileOption" "typing" "_AnnotatedAlias"
            (.error (.raised .type "'types.UnionType' object is not callable")),
          object "VerboseOption" "typing" "_AnnotatedAlias" (.ok (.object "bool" none)),
          functionOf "allen.cli.cli" "_build_router" "config_file",
          functionOf "allen.cli.cli" "_render_result" "result",
          function "allen.cli.cli" "_execute_once"
            (.error (.raised .type
              "_execute_once() missing 2 required positional arguments: 'router' and 'text'")),
          functionOf "allen.cli.cli" "exec_command" "text",
          function "allen.cli.cli" "commands_command" nothingMade,
          function "allen.cli.cli" "repl_command" nothingMade,
          functionOf "allen.cli.cli" "_repl_loop" "router",
          function "allen.cli.cli" "main" nothingMade] ++
        classes ["Path", "Annotated", "Any", "Console", "Table", "CommandError", "CommandRouter",
          "ConfigError"] ++
        values ["annotations", "asyncio", "click", "typer", "_CONSOLE"])]

def sampleModule : ImportModule :=
  let home := "sample_commands"
  moduleOf home
    ([baseCommand, echoCommand,
        commandClass home "WindowCommand" (made Samples.window),
        commandClass home "NumberCommand" (made Samples.number),
        commandClass home "NoneCommand" (made Samples.nothing),
        commandClass home "EmptyCommand" (made Samples.emptyModel),
        commandClass home "FailingCommand" (made Samples.failing),
        commandClass home "NeedsArgs" (.error (.missingArgument "NeedsArgs.__init__" "name")),
        commandClass home "_Shadow" (made Samples.shadow),
        function home "make_shadow" (made Samples.shadow),
        object "echo_factory" home "_CallableObject" (made Echo.command),
        ("NOTHING", .nothing)] ++
      classes ["Unrelated", "_CallableObject", "Parameter", "SomeParameter", "DateTimeParameter"] ++
      values ["NUMBER", "TEXT", "annotations"])

/-- The modules that the program can import. -/
def program : Catalogue := programModules ++ commandModules ++ [sampleModule]

end Catalogue

end ChatCommands
