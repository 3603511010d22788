import ChatCommands.Text.Search

/-!
# Paths of files

A path is a list of names, from the root or from the working directory. Written paths are brought
into this form: doubled slashes and the name `.` vanish, and `..` stays.
-/

namespace ChatCommands

structure Location where
  isAbsolute : Bool
  names : List String
deriving DecidableEq

namespace Location

def ofText (text : String) : Location :=
  ⟨Text.startsWith text "/", (Text.splitAt text '/').filter fun name => name ≠ "" && name ≠ "."⟩

/-- The written form. The working directory is written as a dot. -/
def text (l : Location) : String :=
  if l.isAbsolute then "/" ++ Text.join "/" l.names
  else if l.names.isEmpty then "."
  else Text.join "/" l.names

/-- The names under which what the path leads to is held. Those of an absolute path start with `/`.
-/
def key (l : Location) : List String := if l.isAbsolute then "/" :: l.names else l.names

def name (l : Location) : String := l.names.getLastD ""

def parent (l : Location) : Location := { l with names := l.names.dropLast }

/-- The last name from its last dot on; empty if that dot starts or ends the name, or there is none.
-/
def suffix (l : Location) : String :=
  let cs := l.name.toList
  let extension := (cs.reverse.takeWhile (· ≠ '.')).reverse
  if extension.length + 1 < cs.length && !extension.isEmpty then
    String.ofList ('.' :: extension)
  else ""

/-- Whether the path holds U+0000, which no file system takes. -/
def hasNull (l : Location) : Bool :=
  l.names.any fun name => name.toList.contains '\x00'

end Location

end ChatCommands
