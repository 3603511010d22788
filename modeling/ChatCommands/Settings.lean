import ChatCommands.Registry

/-!
# Settings

The settings name the commands, by the paths they are imported from, and describe the registry. They
are checked against their schema; what is left out has a default.
-/

namespace ChatCommands

/-- The kinds of store that a registry may have. -/
inductive Backend where
  | memory
  | sqlite
deriving DecidableEq

namespace Backend

def word : Backend → String
  | memory => "memory"
  | sqlite => "sqlite"

/-- The kind of store that a document names: exactly one of the words. -/
def check (d : Document) : Checked Backend :=
  match Schema.text d with
  | .ok "memory" => .ok memory
  | .ok "sqlite" => .ok sqlite
  | _ => .broken (.isOneOf ["memory"] "sqlite")

end Backend

/-- The description of a registry. -/
structure RegistrySettings where
  backend : Backend
  sqlitePath : String
  keyPrefix : String
deriving DecidableEq

namespace RegistrySettings

def default : RegistrySettings := ⟨.memory, ".allen/registry.sqlite", Registry.defaultPrefix⟩

def fields : List String := ["backend", "sqlite_path", "key_prefix"]

def check (d : Document) : Checked RegistrySettings := do
  let entries ← Schema.record "RegistrySettings" d
  let backend := Schema.field "backend" (some default.backend) Backend.check entries
  let sqlitePath := Schema.field "sqlite_path" (some default.sqlitePath) Schema.text entries
  let keyPrefix := Schema.field "key_prefix" (some default.keyPrefix) Schema.text entries
  let closed := Schema.closed fields entries
  let (((backend, sqlitePath), keyPrefix), _) ←
    ((backend.both sqlitePath).both keyPrefix).both closed
  return ⟨backend, sqlitePath, keyPrefix⟩

def toDocument (s : RegistrySettings) : Document :=
  .map [(.text "backend", .text s.backend.word), (.text "sqlite_path", .text s.sqlitePath),
    (.text "key_prefix", .text s.keyPrefix)]

end RegistrySettings

/-- The settings of the program. -/
structure Settings where
  commands : List String
  registry : RegistrySettings
deriving DecidableEq

namespace Settings

/-- The bundled commands, and a registry in memory. -/
def default : Settings :=
  ⟨["allen.commands.handlers.schedule:ScheduleCommand", "allen.commands.handlers.echo:EchoCommand"],
    RegistrySettings.default⟩

def fields : List String := ["commands", "registry"]

def check (d : Document) : Checked Settings := do
  let entries ← Schema.record "AllenConfig" d
  let commands := Schema.field "commands" (some default.commands) (Schema.list Schema.text) entries
  let registry :=
    Schema.field "registry" (some default.registry) RegistrySettings.check entries
  let closed := Schema.closed fields entries
  let ((commands, registry), _) ← (commands.both registry).both closed
  return ⟨commands, registry⟩

def toDocument (s : Settings) : Document :=
  .map [(.text "commands", .list (s.commands.map .text)),
    (.text "registry", s.registry.toDocument)]

end Settings

end ChatCommands
