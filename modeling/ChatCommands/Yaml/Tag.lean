import ChatCommands.Text.Search
import ChatCommands.Text.Utf8
import ChatCommands.Yaml.Characters

/-!
# Tags

A tag says what kind of value a node has. In the text it is written in full, or as a handle, which
stands for the start of tags, with the rest of the tag behind it. A lone exclamation mark asks for
the kind that the node has by itself.
-/

namespace ChatCommands

namespace Yaml

/-! ## Kinds of values -/

/-- The tags that values can be made of. -/
inductive Tag where
  | null
  | bool
  | int
  | float
  | binary
  | timestamp
  | text
  | seq
  | omap
  | pairs
  | set
  | map
  -- the key under which other mappings are merged in
  | merge
  -- the key of the value that stands for a mapping
  | value
  | other
deriving DecidableEq

/-- What the full names of the known tags start with. -/
def standardStart : String := "tag:yaml.org,2002:"

/-- The known tags with the ends of their full names. -/
def standardTags : List (String × Tag) :=
  [("null", .null), ("bool", .bool), ("int", .int), ("float", .float), ("binary", .binary),
    ("timestamp", .timestamp), ("str", .text), ("seq", .seq), ("omap", .omap), ("pairs", .pairs),
    ("set", .set), ("map", .map), ("merge", .merge), ("value", .value)]

def Tag.ofName (name : String) : Tag :=
  ((standardTags.find? fun entry => standardStart ++ entry.1 == name).map Prod.snd).getD .other

/-! ## Tags as written -/

/-- A tag as written: a handle, if there is one, and what stands behind it. -/
structure WrittenTag where
  handle : Option String
  rest : String
deriving DecidableEq

abbrev Handles := List (String × String)

def defaultHandles : Handles := [("!", "!"), ("!!", standardStart)]

/-- The full name of a written tag, if its handle stands for something. -/
def WrittenTag.name? (t : WrittenTag) (handles : Handles) : Option String :=
  match t.handle with
  | none => some t.rest
  | some handle => (handles.lookup handle).map (· ++ t.rest)

/-- The name that asks for the kind that a node has by itself. -/
def ownKind : String := "!"

/-! ## Reading tags -/

def isTagChar (c : Char) : Bool :=
  isNameChar c || "-;/?:@&=+$,_.!~*'()[]%".toList.contains c

/-- The bytes of the escapes at the start of a text, each a percent sign and two digits. -/
def takeEscapes? : List Char → Option (List UInt8 × List Char)
  | '%' :: high :: low :: rest => do
    let h ← Chars.hexDigit? high
    let l ← Chars.hexDigit? low
    let (bytes, rest) ← takeEscapes? rest
    return (UInt8.ofNat (h * 16 + l) :: bytes, rest)
  | '%' :: _ => none
  | cs => some ([], cs)

/-- The characters of a tag at the start of a text, escapes decoded; the fuel bounds their number.
-/
def tagChars? : (fuel : Nat) → List Char → Option (List Char × List Char)
  | 0, _ => none
  | fuel + 1, cs =>
    match cs with
    | '%' :: _ => do
      let (bytes, rest) ← takeEscapes? cs
      match Utf8.decode bytes with
      | .error _ => none
      | .ok decoded =>
        let (later, rest) ← tagChars? fuel rest
        return (decoded.toList ++ later, rest)
    | c :: rest =>
      if isTagChar c then do
        let (later, rest) ← tagChars? fuel rest
        return (c :: later, rest)
      else some ([], cs)
    | [] => some ([], [])

/-- The text of a tag in full, of one character at least. -/
def tagText? (cs : List Char) : Option (String × List Char) :=
  if (cs.head?.map isTagChar).getD false then
    (tagChars? (cs.length + 1) cs).map fun (text, rest) => (String.ofList text, rest)
  else none

/-- The handle at the start of a text: one exclamation mark, or a name between two. -/
def handle? (cs : List Char) : Option (String × List Char) :=
  match cs with
  | '!' :: rest =>
    let name := rest.takeWhile isNameChar
    match rest.dropWhile isNameChar with
    | '!' :: behind => some (String.ofList ('!' :: name ++ ['!']), behind)
    | behind =>
      if name.isEmpty && behind.head? == some ' ' then some ("!", rest) else none
  | _ => none

/-- Whether a second exclamation mark stands in the word behind the first. -/
def hasHandle (cs : List Char) : Bool :=
  match cs.find? fun c => c == '!' || c == ' ' || isBreak c with
  | some c => c == '!'
  | none => false

/-- The tag at the start of a text, whatever follows it. -/
def WrittenTag.start? (cs : List Char) : Option (WrittenTag × List Char) :=
  match cs with
  | '!' :: '<' :: rest =>
    match tagText? rest with
    | some (text, '>' :: rest) => some (⟨none, text⟩, rest)
    | _ => none
  | '!' :: rest =>
    if atBlank rest then some (⟨none, ownKind⟩, rest)
    else do
      let (handle, rest) ← if hasHandle rest then handle? cs else some ("!", rest)
      let (text, rest) ← tagText? rest
      return (⟨some handle, text⟩, rest)
  | _ => none

/-- The tag at the start of a text, behind which a gap has to follow. -/
def WrittenTag.read? (cs : List Char) : Option (WrittenTag × List Char) :=
  (WrittenTag.start? cs).filter fun (_, rest) => atGap rest

end Yaml

end ChatCommands
