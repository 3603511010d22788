import ChatCommands.Yaml.Base64
import ChatCommands.Yaml.Node
import ChatCommands.Yaml.Number

/-!
# What nodes mean

The document that a node stands for. The tag of a node says how it is read; mappings may merge
others in, whose entries come first and give way to the mapping's own.

Faults are sought level by level: of two faults the one less deep in the document counts, and on one
level the first. A node that contains an alias of itself is unfolded a number of times.
-/

namespace ChatCommands

namespace Yaml

/-! ## Values with faults at a depth -/

/-- A fault, and how far below the node it lies. -/
structure DeepFault where
  depth : Nat
  fault : Fault

abbrev Valued (α : Type) := Except DeepFault α

namespace Valued

def faulty {α : Type} (fault : Fault) : Valued α := .error ⟨0, fault⟩

/-- A value of the content of a node, seen from the node. -/
def below {α : Type} (value : Valued α) : Valued α :=
  value.mapError fun f => { f with depth := f.depth + 1 }

/-- Two values; of two faults the less deep one counts, or else the first. -/
def both {α β : Type} (first : Valued α) (second : Valued β) : Valued (α × β) :=
  match first, second with
  | .ok a, .ok b => .ok (a, b)
  | .ok _, .error f => .error f
  | .error f, .ok _ => .error f
  | .error f, .error g => .error (if g.depth < f.depth then g else f)

def all {α : Type} : List (Valued α) → Valued (List α)
  | [] => .ok []
  | value :: rest => (value.both (all rest)).map fun (head, tail) => head :: tail

end Valued

/-- The entries of a mapping, each key and value on its own. -/
abbrev Entries := List (Valued Document × Valued Document)

/-! ## Scalars -/

/-- The document that a scalar stands for, if its tag is one of scalars. -/
def ofScalar (tag : Tag) (text : String) : Except Fault Document :=
  match tag with
  | .null => .ok .null
  | .bool =>
    let word := Text.lowerAscii text
    match truthWords.lookup word with
    | some value => .ok (.bool value)
    | none => .error (.scalar (.notATruthValue word))
  | .int => ((Number.ofScalar text).map Document.int).mapError .scalar
  | .float => ((Number.floatOfScalar text).map Document.float).mapError .scalar
  | .binary =>
    match Base64.decode text.toList with
    | some bytes => .ok (.bytes bytes)
    | none => .error .malformed
  | .timestamp => (momentOfScalar text).mapError .scalar
  | .text => .ok (.text text)
  | _ => .error .malformed

def Tag.isCollection : Tag → Bool
  | seq => true
  | omap => true
  | pairs => true
  | set => true
  | map => true
  | _ => false

/-! ## Meanings -/

/-- What a node means to the nodes around it. -/
structure Meaning where
  tag : Tag
  text : Option String
  document : Valued Document
  written : Option Entries
  -- the entries that it contributes when it is merged in
  merged : Option Entries

namespace Meaning

/-- The meaning of a node that is not known yet. -/
def pending : Meaning := ⟨.null, none, .ok .null, some [], some []⟩

/-- The document of a collection that is read as a scalar. -/
def scalarDocument (tag : Tag) (text : Option String) : Valued Document :=
  match text with
  | some text => (ofScalar tag text).mapError (DeepFault.mk 0)
  | none => .faulty .malformed

def ofText (tag : Tag) (text : String) : Meaning :=
  let document : Valued Document := scalarDocument tag text
  ⟨tag, some text, if tag.isCollection then Valued.below document else document, none, none⟩

/-! ### Sequences -/

/-- The pair that an item of a sequence of pairs stands for. -/
def pair (item : Meaning) : Valued Document :=
  match item.written with
  | some [(key, value)] => (key.both value).map fun (key, value) => .list [key, value]
  | _ => .faulty .malformed

/-- The entries that a sequence contributes when it is merged in: those of its items, which are all
mappings, the last first. -/
def mergedItems : List Meaning → Option Entries
  | [] => some []
  | item :: items => do
    let later ← mergedItems items
    if item.written.isSome then return later ++ (← item.merged) else none

def ofItems (tag : Tag) (items : List Meaning) : Meaning :=
  let document : Valued Document :=
    match tag with
    | .seq => Valued.below ((Valued.all (items.map document)).map Document.list)
    | .omap => Valued.below ((Valued.all (items.map pair)).map Document.list)
    | .pairs => Valued.below ((Valued.all (items.map pair)).map Document.list)
    | .set => Valued.below (.faulty .malformed)
    | .map => Valued.below (.faulty .malformed)
    | _ => .faulty .malformed
  ⟨tag, none, document, none, mergedItems items⟩

/-! ### Mappings -/

/-- The entries that the entries of a mapping merge in. -/
def mergedEntries : List (Meaning × Meaning) → Option Entries
  | [] => some []
  | (key, value) :: entries =>
    if key.tag = .merge then do return (← value.merged) ++ (← mergedEntries entries)
    else mergedEntries entries

/-- What a node stands for as a key. A collection is none, whatever it contains. -/
def asKey (m : Meaning) : Valued Document :=
  if m.tag = .value then scalarDocument .text m.text
  else if m.tag.isCollection then .faulty .malformed
  else m.document

/-- The entries of a mapping that are its own. -/
def ownEntries (entries : List (Meaning × Meaning)) : Entries :=
  (entries.filter fun entry => entry.1.tag != .merge).map fun (key, value) =>
    (key.asKey, value.document)

/-- The text of the value that stands for a mapping. -/
def valueText (entries : List (Meaning × Meaning)) : Option String :=
  (entries.find? fun entry => entry.1.tag == .value).bind fun entry => entry.2.text

/-- The entries that a mapping consists of, each key once. -/
def contents (flat : Option Entries) : Valued (List (Document × Document)) :=
  match flat with
  | none => .faulty .malformed
  | some entries =>
    (Valued.all (entries.map fun entry => entry.1.both entry.2)).map Document.entriesOf

/-- The document of a mapping that is read as a scalar, `text` being what its value says. It is no
moment, even if the text is. -/
def mappingDocument (tag : Tag) (text : Option String) : Valued Document :=
  if tag = .timestamp ∧ text.isSome then .faulty (.scalar .momentOfMapping)
  else scalarDocument tag text

def ofEntries (tag : Tag) (entries : List (Meaning × Meaning)) : Meaning :=
  let flat : Option Entries := (mergedEntries entries).map (· ++ ownEntries entries)
  let text := valueText entries
  let document : Valued Document :=
    match tag with
    | .map => Valued.below ((contents flat).map Document.map)
    | .set =>
      Valued.below ((contents flat).map fun entries => Document.set (entries.map Prod.fst))
    | .seq => Valued.below (.faulty .malformed)
    | .omap => Valued.below (.faulty .malformed)
    | .pairs => Valued.below (.faulty .malformed)
    | _ => mappingDocument tag text
  let written := entries.map fun (key, value) => (key.document, value.document)
  ⟨tag, text, document, some written, flat⟩

end Meaning

/-! ## From nodes to meanings -/

/-- The meanings of the nodes that names mark. -/
abbrev Known := List (String × Meaning)

/-- The meanings with one more, if a name marks its node. -/
def Known.add (known : Known) (anchor : Option String) (m : Meaning) : Known :=
  match anchor with
  | some name => (name, m) :: known
  | none => known

namespace Node

mutual

/-- The meaning of a node, and the meanings known after it. `earlier` holds meanings for nodes that
contain an alias of themselves. -/
def meaning (earlier known : Known) : Node → Meaning × Known
  | aliasOf name =>
    (((known.lookup name).or (earlier.lookup name)).getD Meaning.pending, known)
  | scalar anchor tag text =>
    let m := Meaning.ofText tag text
    (m, known.add anchor m)
  | sequence anchor tag items =>
    let (items, known) := meaningsOfItems earlier known items
    let m := Meaning.ofItems tag items
    (m, known.add anchor m)
  | mapping anchor tag entries =>
    let (entries, known) := meaningsOfEntries earlier known entries
    let m := Meaning.ofEntries tag entries
    (m, known.add anchor m)

/-- The meanings of the items of a sequence. -/
def meaningsOfItems (earlier known : Known) : List Node → List Meaning × Known
  | [] => ([], known)
  | item :: items =>
    let (first, known) := meaning earlier known item
    let (later, known) := meaningsOfItems earlier known items
    (first :: later, known)

/-- The meanings of the entries of a mapping. -/
def meaningsOfEntries (earlier known : Known) :
    List (Node × Node) → List (Meaning × Meaning) × Known
  | [] => ([], known)
  | (key, value) :: entries =>
    let (first, known) := meaning earlier known key
    let (second, known) := meaning earlier known value
    let (later, known) := meaningsOfEntries earlier known entries
    ((first, second) :: later, known)

end

/-- The meanings of all marked nodes, unfolded a number of times. -/
def unfolded (node : Node) : (count : Nat) → Known
  | 0 => []
  | count + 1 => (node.meaning (node.unfolded count) []).2

/-- How often a node that contains an alias of itself is unfolded. -/
def unfoldings : Nat := 4

def document (node : Node) : Except Fault Document :=
  ((node.meaning (node.unfolded unfoldings) []).1.document).mapError DeepFault.fault

end Node

end Yaml

end ChatCommands
