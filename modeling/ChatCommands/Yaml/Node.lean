import ChatCommands.Yaml.Implicit
import ChatCommands.Yaml.Token

/-!
# Nodes

The tree that the tokens of a document describe. Every node has a tag; a name may mark a node, and
an alias stands for the node that its name marks. The grammar is read by descent: a function for
each kind of collection takes its items one after another.
-/

namespace ChatCommands

namespace Yaml

/-- A node of a document. -/
inductive Node where
  | aliasOf (name : String)
  | scalar (anchor : Option String) (tag : Tag) (text : String)
  | sequence (anchor : Option String) (tag : Tag) (items : List Node)
  | mapping (anchor : Option String) (tag : Tag) (entries : List (Node × Node))
deriving Inhabited

namespace Node

def empty : Node := .scalar none .null ""

/-! ## Properties -/

/-- What may stand in front of a node: a name that marks it, and the full name of its tag. -/
structure Properties where
  anchor : Option String
  tagName : Option String

namespace Properties

def isEmpty (p : Properties) : Bool := p.anchor.isNone && p.tagName.isNone

/-- Whether the node keeps the kind that it has by itself. -/
def isOwnKind (p : Properties) : Bool := p.tagName.isNone || p.tagName == some ownKind

/-- The tag of a collection, which by itself has the given one. -/
def collectionTag (p : Properties) (own : Tag) : Tag :=
  if p.isOwnKind then own else ((p.tagName.map Tag.ofName).getD own)

/-- The tag of a scalar. One in quotes is a text by itself, unless it is asked what it looks like.
-/
def scalarTag (p : Properties) (text : String) (isPlain : Bool) : Tag :=
  match p.tagName with
  | none => if isPlain then Tag.ofPlain text else .text
  | some name => if name = ownKind then Tag.ofPlain text else Tag.ofName name

/-- The properties in front of a node, in either order, and the tokens behind them. -/
def read? (handles : Handles) (tokens : List Token) : Option (Properties × List Token) :=
  match tokens with
  | .anchor name :: .tag tag :: rest =>
    (tag.name? handles).map fun tagName => (⟨some name, some tagName⟩, rest)
  | .tag tag :: .anchor name :: rest =>
    (tag.name? handles).map fun tagName => (⟨some name, some tagName⟩, rest)
  | .anchor name :: rest => some (⟨some name, none⟩, rest)
  | .tag tag :: rest => (tag.name? handles).map fun tagName => (⟨none, some tagName⟩, rest)
  | _ => some (⟨none, none⟩, tokens)

end Properties

/-! ## The grammar -/

/-- Where a node stands, which decides what it may be. -/
inductive Context where
  | flow
  | block
  -- in a mapping of a block: dashes may follow without a block of their own
  | entry
deriving DecidableEq

/-- Whether the next token is one of those given. -/
def isNext (tokens : List Token) (among : List Token) : Bool :=
  (tokens.head?.map among.contains).getD false

mutual

/-- The node at the start of the tokens, and the tokens behind it. The fuel bounds the number of
steps. -/
def read? (handles : Handles) :
    (fuel : Nat) → Context → List Token → Option (Node × List Token)
  | 0, _, _ => none
  | fuel + 1, context, tokens =>
    match tokens with
    | .aliasOf name :: rest => some (.aliasOf name, rest)
    | _ => do
      let (p, rest) ← Properties.read? handles tokens
      if context = .entry && isNext rest [.dash] then
        let (items, rest) ← dashes? handles fuel [.dash, .key, .value, .blockEnd] rest
        return (.sequence p.anchor (p.collectionTag .seq) items, rest)
      else
        match rest with
        | .scalar text isPlain :: rest =>
          return (.scalar p.anchor (p.scalarTag text isPlain) text, rest)
        | .flowSequence :: rest =>
          let (items, rest) ← flowItems? handles fuel true rest
          return (.sequence p.anchor (p.collectionTag .seq) items, rest)
        | .flowMapping :: rest =>
          let (entries, rest) ← flowEntries? handles fuel true rest
          return (.mapping p.anchor (p.collectionTag .map) entries, rest)
        | .blockSequence :: rest =>
          if context = .flow then none
          else
            let (items, rest) ← dashes? handles fuel [.dash, .blockEnd] rest
            match rest with
            | .blockEnd :: rest => return (.sequence p.anchor (p.collectionTag .seq) items, rest)
            | _ => none
        | .blockMapping :: rest =>
          if context = .flow then none
          else
            let (entries, rest) ← blockEntries? handles fuel rest
            return (.mapping p.anchor (p.collectionTag .map) entries, rest)
        | _ =>
          if p.isEmpty then none
          else return (.scalar p.anchor (p.scalarTag "" p.isOwnKind) "", rest)

/-- The node at the start of the tokens, or the empty one in front of tokens that end it. -/
def readOr? (handles : Handles) :
    (fuel : Nat) → Context → (ends : List Token) → List Token → Option (Node × List Token)
  | 0, _, _, _ => none
  | fuel + 1, context, ends, tokens =>
    if isNext tokens ends then some (empty, tokens) else read? handles fuel context tokens

/-- The items that start with a dash; `ends` are the tokens in front of which an item is empty. -/
def dashes? (handles : Handles) :
    (fuel : Nat) → (ends : List Token) → List Token → Option (List Node × List Token)
  | 0, _, _ => none
  | fuel + 1, ends, tokens =>
    match tokens with
    | .dash :: rest => do
      let (item, rest) ← readOr? handles fuel .block ends rest
      let (later, rest) ← dashes? handles fuel ends rest
      return (item :: later, rest)
    | _ => some ([], tokens)

/-- The value of an entry, empty if no value is written. -/
def value? (handles : Handles) :
    (fuel : Nat) → Context → (ends : List Token) → List Token → Option (Node × List Token)
  | 0, _, _, _ => none
  | fuel + 1, context, ends, tokens =>
    match tokens with
    | .value :: rest => readOr? handles fuel context ends rest
    | _ => some (empty, tokens)

/-- The entries of a mapping in a block, up to the end of the block. -/
def blockEntries? (handles : Handles) :
    (fuel : Nat) → List Token → Option (List (Node × Node) × List Token)
  | 0, _ => none
  | fuel + 1, tokens =>
    match tokens with
    | .blockEnd :: rest => some ([], rest)
    | .key :: rest => do
      let (key, rest) ← readOr? handles fuel .entry [.key, .value, .blockEnd] rest
      let (value, rest) ← value? handles fuel .entry [.key, .value, .blockEnd] rest
      let (later, rest) ← blockEntries? handles fuel rest
      return ((key, value) :: later, rest)
    | _ => none

/-- The items of a sequence in brackets, up to the closing one. A comma stands in front of all but
the first; an item that is written as a key with a value is a mapping of its own. -/
def flowItems? (handles : Handles) :
    (fuel : Nat) → (isFirst : Bool) → List Token → Option (List Node × List Token)
  | 0, _, _ => none
  | fuel + 1, isFirst, tokens =>
    match tokens with
    | .flowSequenceEnd :: rest => some ([], rest)
    | _ => do
      let tokens ←
        if isFirst then some tokens
        else match tokens with
          | .comma :: rest => some rest
          | _ => none
      match tokens with
      | .flowSequenceEnd :: rest => some ([], rest)
      | .key :: rest =>
        let (key, rest) ← readOr? handles fuel .flow [.value, .comma, .flowSequenceEnd] rest
        let (value, rest) ← value? handles fuel .flow [.comma, .flowSequenceEnd] rest
        let (later, rest) ← flowItems? handles fuel false rest
        some (.mapping none .map [(key, value)] :: later, rest)
      | _ =>
        let (item, rest) ← read? handles fuel .flow tokens
        let (later, rest) ← flowItems? handles fuel false rest
        some (item :: later, rest)

/-- The entries of a mapping in brackets, up to the closing one. A comma stands in front of all but
the first; an entry that is not written as a key has no value. -/
def flowEntries? (handles : Handles) :
    (fuel : Nat) → (isFirst : Bool) → List Token → Option (List (Node × Node) × List Token)
  | 0, _, _ => none
  | fuel + 1, isFirst, tokens =>
    match tokens with
    | .flowMappingEnd :: rest => some ([], rest)
    | _ => do
      let tokens ←
        if isFirst then some tokens
        else match tokens with
          | .comma :: rest => some rest
          | _ => none
      match tokens with
      | .flowMappingEnd :: rest => some ([], rest)
      | .key :: rest =>
        let (key, rest) ← readOr? handles fuel .flow [.value, .comma, .flowMappingEnd] rest
        let (value, rest) ← value? handles fuel .flow [.comma, .flowMappingEnd] rest
        let (later, rest) ← flowEntries? handles fuel false rest
        some ((key, value) :: later, rest)
      | _ =>
        let (key, rest) ← read? handles fuel .flow tokens
        let (later, rest) ← flowEntries? handles fuel false rest
        some ((key, empty) :: later, rest)

end

/-! ## Names -/

/-- A name in a document, where it marks a node or stands for one. -/
inductive Mention where
  | anchor (name : String)
  | aliasOf (name : String)
deriving DecidableEq

/-- The mention that marks a node, if there is one. -/
def anchorMention (anchor : Option String) : List Mention := (anchor.map Mention.anchor).toList

mutual

/-- The names in a node, in the order of the text. -/
def mentions : Node → List Mention
  | aliasOf name => [.aliasOf name]
  | scalar anchor _ _ => anchorMention anchor
  | sequence anchor _ items => anchorMention anchor ++ mentionsOfItems items
  | mapping anchor _ entries => anchorMention anchor ++ mentionsOfEntries entries

def mentionsOfItems : List Node → List Mention
  | [] => []
  | item :: items => mentions item ++ mentionsOfItems items

def mentionsOfEntries : List (Node × Node) → List Mention
  | [] => []
  | (key, value) :: entries => mentions key ++ mentions value ++ mentionsOfEntries entries

end

/-- Whether no name marks two nodes, and every alias comes behind the node it stands for has begun;
`known` are the names that mark nodes further up. -/
def areSound (known : List String) : List Mention → Bool
  | [] => true
  | .anchor name :: rest => !known.contains name && areSound (name :: known) rest
  | .aliasOf name :: rest => known.contains name && areSound known rest

/-- Whether the names of a document are sound. -/
def isSound (node : Node) : Bool := areSound [] node.mentions

end Node

end Yaml

end ChatCommands
