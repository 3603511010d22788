import ChatCommands.FileTree
import ChatCommands.Settings
import ChatCommands.Yaml.Decode

/-!
# Settings in files

Settings are read from a file in UTF-8, which holds JSON if its name says so, and YAML otherwise. A
file that is not there holds the default settings, and so does one that holds nothing.

The readers of the two formats are a parameter. `Readers.bundled` are those of this library, which
`load` reads with and `Machine.ofFiles` runs with. They do without a limit on nesting and put U+FFFD
for half a surrogate pair, and of a YAML text with several faults they may name another one than a
reader that scans and parses by turns.
-/

namespace ChatCommands

/-- Why a reader gives no document. -/
inductive Unread where
  -- an error of the format, which the program catches
  | reported (detail : String)
  -- any other failure, which it lets through
  | raised (failure : Failure) (hkind : failure.kind ≠ .config)

/-- A reader for each format. -/
structure Readers where
  json : String → Except Unread Document
  yaml : String → Except Unread Document

namespace Readers

def unreadJson : Json.Error → Unread
  | .tooManyDigits count => .raised (.tooManyDigits count) nofun
  | fault => .reported fault.message

def unreadYaml : Yaml.Fault → Unread
  | .scalar fault => .raised (.scalar fault) fault.kind_ne_config
  | .malformed => .reported ""

def bundled : Readers where
  json source := (Json.decode source).mapError unreadJson
  yaml source := (Yaml.decode source).mapError unreadYaml

end Readers

namespace Settings

def jsonSuffix : String := ".json"

def isJson (location : Location) : Bool := Text.lowerAscii location.suffix = jsonSuffix

def refuse {α : Type} (failure : ConfigFailure) : Except Failure α := .error (.config failure)

/-- What the reader for a file of this name makes of a text. -/
def read (readers : Readers) (location : Location) (source : String) : Except Unread Document :=
  if isJson location then readers.json source else readers.yaml source

/-- The document that a file of this name holds. A fault that the reader reports is of kind
`config`. -/
def decode (readers : Readers) (location : Location) (source : String) : Except Failure Document :=
  match read readers location source with
  | .ok document => .ok document
  | .error (.raised failure _) => .error failure
  | .error (.reported detail) =>
    refuse (if isJson location then .notJson location.name detail else .notYaml location.name)

/-- The settings that the document of a file describes; `null` describes the default ones. -/
def ofDocument (location : Location) (document : Document) : Except Failure Settings :=
  let root : Except Failure Document :=
    match document with
    | .null => .ok (.map [])
    | .map entries => .ok (.map entries)
    | _ => refuse (.notAMapping location.name)
  match root with
  | .error failure => .error failure
  | .ok root =>
    match check root with
    | .ok settings => .ok settings
    | .error violations => refuse (.invalid violations)

/-- The settings that the bytes of a file describe. Bytes that are not UTF-8 fail with
`undecodable`. -/
def ofBytes (readers : Readers) (location : Location) (content : List UInt8) :
    Except Failure Settings :=
  match Utf8.decode content with
  | .error fault => .error (.undecodable fault)
  | .ok source => do ofDocument location (← decode readers location (Text.unifyBreaks source))

/-- The first byte in the file of a database that is not UTF-8. It stands in the header of the first
page. -/
def databaseFault : Utf8.Fault := ⟨.invalidStart, 0xF8, 102, 102⟩

/-- The settings in a file. A file that is not there holds the default ones. -/
def loadWith (readers : Readers) (files : FileTree) (location : Location) :
    Except Failure Settings :=
  if location.hasNull then .ok default
  else
    match files.locate location with
    | .node _ (.file content) => ofBytes readers location content
    | .node _ (.database _) => .error (.undecodable databaseFault)
    | place => if place.isDirectory then .error (.isDirectory location.text) else .ok default

def load (files : FileTree) (location : Location) : Except Failure Settings :=
  loadWith .bundled files location

end Settings

end ChatCommands
