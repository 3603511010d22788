/-!
# Blank characters, trimming and words

Which characters count as blank, and the two operations that rest on that class: cutting blanks off
both ends of a text, and splitting a text into its words. Everything is defined on lists of
characters; the functions on `String` wrap them.
-/

namespace ChatCommands

/-! ## Blank characters -/

/-- The blank characters: the white space of Unicode together with the four information
separators U+001C to U+001F. -/
def isBlank (c : Char) : Bool :=
  let n := c.toNat
  (0x09 ≤ n && n ≤ 0x0D) || (0x1C ≤ n && n ≤ 0x20) || n == 0x85 || n == 0xA0 || n == 0x1680 ||
    (0x2000 ≤ n && n ≤ 0x200A) || n == 0x2028 || n == 0x2029 || n == 0x202F || n == 0x205F ||
    n == 0x3000

namespace Chars

/-! ## Trimming -/

def trimStart (cs : List Char) : List Char :=
  cs.dropWhile isBlank

def trimEnd (cs : List Char) : List Char :=
  cs.foldr (fun c rest => if rest.isEmpty && isBlank c then [] else c :: rest) []

def trim (cs : List Char) : List Char :=
  trimStart (trimEnd cs)

/-! ## Words -/

/-- Put a word in front of the words behind it. An empty word is no word. -/
def consWord (word : List Char) (words : List (List Char)) : List (List Char) :=
  if word.isEmpty then words else word :: words

/-- The run of characters up to the first blank, and the words behind it. -/
def splitWord : List Char → List Char × List (List Char)
  | [] => ([], [])
  | c :: cs =>
    let (word, later) := splitWord cs
    if isBlank c then ([], consWord word later) else (c :: word, later)

/-- The words of a text: its maximal runs without a blank, in order. -/
def words (cs : List Char) : List (List Char) :=
  let (word, later) := splitWord cs
  consWord word later

@[simp] theorem words_nil : words [] = [] := rfl

end Chars

namespace Text

def trim (text : String) : String :=
  String.ofList (Chars.trim text.toList)

def words (text : String) : List String :=
  (Chars.words text.toList).map String.ofList

/-- Words with a single space between them. -/
def unwords (words : List String) : String :=
  String.intercalate " " words

end Text

end ChatCommands
