/-!
# Looking for one text inside another

Prefixes, occurrences, and the cuts made at them. As for blanks, the definitions are on lists of
characters and the functions on `String` wrap them.
-/

namespace ChatCommands

namespace Chars

/-- Whether the pattern stands somewhere in the text. -/
def occursIn (pattern : List Char) : List Char → Bool
  | [] => pattern.isEmpty
  | c :: cs => pattern.isPrefixOf (c :: cs) || occursIn pattern cs

/-- The text without the first occurrence of the pattern. -/
def eraseFirst (pattern : List Char) : List Char → List Char
  | [] => []
  | c :: cs =>
    if pattern.isPrefixOf (c :: cs) then (c :: cs).drop pattern.length
    else c :: eraseFirst pattern cs

/-- The text before the first separator, and the text behind it if there is one. -/
def cutAt (separator : Char) : List Char → List Char × Option (List Char)
  | [] => ([], none)
  | c :: cs =>
    if c = separator then ([], some cs)
    else
      let (before, behind) := cutAt separator cs
      (c :: before, behind)

/-- The pieces of the text between separators; always at least one. -/
def splitAt (separator : Char) : List Char → List (List Char)
  | [] => [[]]
  | c :: cs =>
    if c = separator then [] :: splitAt separator cs
    else
      match splitAt separator cs with
      | [] => [[c]]
      | piece :: pieces => (c :: piece) :: pieces

end Chars

namespace Text

/-- Whether the text begins with the pattern. -/
def startsWith (text pattern : String) : Bool :=
  pattern.toList.isPrefixOf text.toList

/-- The text without its first `n` characters. -/
def drop (text : String) (n : Nat) : String :=
  String.ofList (text.toList.drop n)

def contains (text pattern : String) : Bool :=
  Chars.occursIn pattern.toList text.toList

def eraseFirst (text pattern : String) : String :=
  String.ofList (Chars.eraseFirst pattern.toList text.toList)

def cutAt (text : String) (separator : Char) : String × Option String :=
  let (before, behind) := Chars.cutAt separator text.toList
  (String.ofList before, behind.map String.ofList)

def splitAt (text : String) (separator : Char) : List String :=
  (Chars.splitAt separator text.toList).map String.ofList

/-- The text with the letters A to Z in lower case. -/
def lowerAscii (text : String) : String :=
  String.ofList (text.toList.map Char.toLower)

def join (separator : String) (texts : List String) : String :=
  String.intercalate separator texts

/-- The order of texts by code points. -/
def before (left right : String) : Bool :=
  decide (left < right)

end Text

end ChatCommands
