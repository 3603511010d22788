import ChatCommands.Json
import ChatCommands.Text.Utf8
import ChatCommands.Violation
import ChatCommands.Yaml.Fault

/-!
# Failures

Everything that can go wrong, by cause. A cause is a constructor that carries what its message
needs; `Failure.kind` sorts the causes into the kinds that callers tell apart, and `Failure.message`
words them. The kinds `command`, `parse` and `validation` are meant for the person who typed the
line; the command line catches these and lets the others end the program.
-/

namespace ChatCommands

/-- The kinds of failure that callers tell apart. -/
inductive FailureKind where
  -- a command failed in a way meant for the user
  | command
  | parse
  | validation
  | config
  | schema
  | key
  -- an operation meets a value of the wrong kind
  | type
  | lookup
  | index
  | value
  | runtime
  | member
  | unicode
  | isDirectory
  | notADirectory
  | fileExists
  | programming
  | operational
  | database
  | encoding
  | overflow
  | markup
deriving DecidableEq

/-- Failures that are meant for the user. -/
inductive CommandFailure where
  | unaddressed (command text : String)
  | unroutable (text : String)
  -- help is asked for a parameter that the command does not have
  | unknownTopic (command topic : String)
  | emptyValue (parameter : String)
  | notADate (parameter value : String)
  | rejected
deriving DecidableEq

/-- Failures of kind `config`. -/
inductive ConfigFailure where
  | notJson (file detail : String)
  | notYaml (file : String)
  | notAMapping (file : String)
  | invalid (violations : List Violation)
  -- a command path is not of the form `module:attr`
  | malformedPath (path : String)
  -- the module of a path cannot be imported: `missing` does not exist, and if `parent` is given it
  -- is a module that holds no others
  | cannotImport (moduleName missing : String) (parent : Option String)
  | noMember (moduleName member : String)
  -- the path leads to a class that is no command
  | notACommand (path : String)
  -- the path leads to something that cannot be called
  | notCallable (path : String)
deriving DecidableEq

/-- Why a database does not carry out a statement. -/
inductive Refusal where
  -- the database is locked or read-only, say, or its log cannot be opened
  | unable (message : String)
  | unencodable (message : String)
deriving DecidableEq

inductive StoreFailure where
  | closed
  | cannotOpen
  | notADatabase
  -- a file stands where a directory has to be made
  | parentExists (path : String)
  -- a path leads through something that is no directory
  | notADirectory (path : String)
  -- the database does not carry out a statement
  | refused (refusal : Refusal)
deriving DecidableEq

/-- Everything that can go wrong. -/
inductive Failure where
  | command (failure : CommandFailure)
  | config (failure : ConfigFailure)
  | store (failure : StoreFailure)
  | invalid (violations : List Violation)
  -- the parameter belongs to a live command already
  | alreadyBound (parameter owner : String)
  | unbound (parameter : String)
  | missingKey (key : String)
  -- two moments are compared of which just one carries an offset
  | mixedAwareness
  -- two values have no order; their kinds are named
  | incomparable (left right : String)
  -- a value of the named kind is no list to append to
  | notAppendable (kind : String)
  -- a value of the named kind is no moment, and so has no offset
  | noOffset (kind : String)
  -- an object of the named class, which is no command, lacks a member that commands have
  | missingMember (className member : String)
  | abstractCommand
  -- something is called without an argument that it needs
  | missingArgument (callee argument : String)
  -- a command path whose module is relative to nothing
  | relativeModule (moduleName : String)
  | isDirectory (path : String)
  | undecodable (fault : Utf8.Fault)
  | nullInPath
  -- an integer in JSON has so many digits, more than are converted
  | tooManyDigits (count : Nat)
  | scalar (fault : Yaml.ScalarFault)
  | markup (detail : String)
  -- a failure of the given kind, raised by a command with its own message
  | raised (kind : FailureKind) (message : String)
deriving DecidableEq

/-! ## Messages -/

def CommandFailure.message : CommandFailure → String
  | unaddressed command text =>
    "The given input (" ++ text ++ ") cannot be parsed by the command " ++ command
  | unroutable text => "No registered command can parse the input (" ++ text ++ ")."
  | unknownTopic command topic =>
    "The command " ++ command ++ " has no parameter named '" ++ topic ++ "'."
  | emptyValue parameter => "the \"" ++ parameter ++ "\" parameter cannot be empty"
  | notADate parameter value =>
    "the \"" ++ parameter ++ "\" parameter expects an ISO8601 date, got " ++ Text.quoted value
  | rejected => "The arguments passed to the parameter are not valid"

def ConfigFailure.message : ConfigFailure → String
  | notJson file detail => "Invalid config JSON in " ++ file ++ ": " ++ detail
  | notYaml file => "Invalid config YAML in " ++ file
  | notAMapping file => "Invalid config payload in " ++ file ++ ": root must be a mapping"
  | invalid _ => "Invalid config payload"
  | malformedPath path => "Invalid command path '" ++ path ++ "': expected 'module:attr'."
  | cannotImport moduleName missing parent =>
    "Cannot import command module '" ++ moduleName ++ "': No module named " ++
      Text.quoted missing ++
      match parent with
      | none => ""
      | some parent => "; " ++ Text.quoted parent ++ " is not a package"
  | noMember moduleName member =>
    "Module '" ++ moduleName ++ "' has no attribute '" ++ member ++ "'."
  | notACommand path => "'" ++ path ++ "' is not a Command subclass."
  | notCallable path => "'" ++ path ++ "' is not callable."

def Refusal.message : Refusal → String
  | unable message => message
  | unencodable message => message

def StoreFailure.message : StoreFailure → String
  | closed => "Cannot operate on a closed database."
  | cannotOpen => "unable to open database file"
  | notADatabase => "file is not a database"
  | parentExists path => "[Errno 17] File exists: " ++ Text.quoted path
  | notADirectory path => "[Errno 20] Not a directory: " ++ Text.quoted path
  | refused refusal => refusal.message

/-- The wording of a failure. That of `missingKey` is the quoted key alone. -/
def Failure.message : Failure → String
  | command failure => failure.message
  | config failure => failure.message
  | store failure => failure.message
  | invalid _ => ""
  | alreadyBound parameter owner =>
    "Parameter '" ++ parameter ++ "' is already bound to command '" ++ owner ++ "'."
  | unbound parameter => "Parameter '" ++ parameter ++ "' is not bound to a command."
  | missingKey key => Text.quoted key
  | mixedAwareness => "can't compare offset-naive and offset-aware datetimes"
  | incomparable left right =>
    "'<' not supported between instances of '" ++ left ++ "' and '" ++ right ++ "'"
  | notAppendable kind => "'" ++ kind ++ "' object has no attribute 'append'"
  | noOffset kind => "'" ++ kind ++ "' object has no attribute 'utcoffset'"
  | missingMember className member =>
    "'" ++ className ++ "' object has no attribute '" ++ member ++ "'"
  | abstractCommand => "Can't instantiate abstract class Command with abstract method run"
  | missingArgument callee argument =>
    callee ++ "() missing 1 required positional argument: '" ++ argument ++ "'"
  | relativeModule moduleName =>
    "the 'package' argument is required to perform a relative import for " ++ Text.quoted moduleName
  | isDirectory path => "[Errno 21] Is a directory: " ++ Text.quoted path
  | undecodable fault => fault.message
  | nullInPath => "embedded null byte"
  | tooManyDigits count => (Json.Error.tooManyDigits count).message
  | scalar fault => fault.message
  | markup detail => detail
  | raised .key message => Text.quoted message
  | raised _ message => message

/-! ## Kinds -/

/-- All failures meant for the user are of kind `parse`, but for `rejected`. -/
def CommandFailure.kind : CommandFailure → FailureKind
  | rejected => .validation
  | _ => .parse

def Refusal.kind : Refusal → FailureKind
  | unable _ => .operational
  | unencodable _ => .encoding

def StoreFailure.kind : StoreFailure → FailureKind
  | closed => .programming
  | cannotOpen => .operational
  | notADatabase => .database
  | parentExists _ => .fileExists
  | notADirectory _ => .notADirectory
  | refused refusal => refusal.kind

def Yaml.ScalarFault.kind : Yaml.ScalarFault → FailureKind
  | notAMoment => .member
  | notATruthValue _ => .key
  | noDigits => .index
  | momentOfMapping => .type
  | tooManyParts => .overflow
  | codeTooLarge => .overflow
  | _ => .value

theorem Yaml.ScalarFault.kind_ne_config (fault : ScalarFault) : fault.kind ≠ .config := by
  cases fault <;> nofun

def Failure.kind : Failure → FailureKind
  | command failure => failure.kind
  | config _ => .config
  | store failure => failure.kind
  | invalid _ => .schema
  | alreadyBound _ _ => .runtime
  | unbound _ => .runtime
  | missingKey _ => .key
  | mixedAwareness => .type
  | incomparable _ _ => .type
  | notAppendable _ => .member
  | noOffset _ => .member
  | missingMember _ _ => .member
  | abstractCommand => .type
  | missingArgument _ _ => .type
  | relativeModule _ => .type
  | isDirectory _ => .isDirectory
  | undecodable _ => .unicode
  | nullInPath => .value
  | tooManyDigits _ => .value
  | scalar fault => fault.kind
  | markup _ => .markup
  | raised kind _ => kind

def FailureKind.isForUser : FailureKind → Bool
  | command => true
  | parse => true
  | validation => true
  | _ => false

def Failure.isForUser (failure : Failure) : Bool := failure.kind.isForUser

/-- The violations that a failure reports, if it is about a schema. -/
def Failure.violations? : Failure → Option (List Violation)
  | invalid violations => some violations
  | config (.invalid violations) => some violations
  | _ => none

end ChatCommands
