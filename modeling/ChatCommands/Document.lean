import ChatCommands.Decimal.Shortest
import ChatCommands.Text.Quoted

/-!
# Documents

The tree that a configuration text describes, whichever format the text is in. Mappings keep the
order of their entries, and their keys may be any document that can be compared; numbers are equal
as keys when they are equal as numbers, truth values counting as 0 and 1.
-/

namespace ChatCommands

/-- A tree of scalars, sequences and mappings. -/
inductive Document where
  | null
  | bool (value : Bool)
  | int (value : Int)
  | float (value : Float)
  | text (value : String)
  | bytes (value : List UInt8)
  -- a date or a moment in time, given by the form in which messages show it
  | moment (shown : String)
  | list (items : List Document)
  | set (items : List Document)
  | map (entries : List (Document × Document))
deriving Inhabited

namespace Document

/-! ## Keys -/

/-- The number that a scalar counts as when keys are compared. -/
def number? : Document → Option (Int ⊕ Float)
  | bool value => some (.inl (if value then 1 else 0))
  | int value => some (.inl value)
  | float value => some (.inr value)
  | _ => none

/-- Whether two documents are the same key. -/
def sameKey (left right : Document) : Bool :=
  match left, right with
  | null, null => true
  | text s, text t => s == t
  | bytes s, bytes t => s == t
  | moment s, moment t => s == t
  | _, _ =>
    match left.number?, right.number? with
    | some (.inl m), some (.inl n) => m == n
    | some (.inl m), some (.inr x) => Float.ofInt m == x
    | some (.inr x), some (.inl n) => x == Float.ofInt n
    | some (.inr x), some (.inr y) => x == y
    | _, _ => false

/-- The entries with `value` under `key`: in place of the old one, or behind all others. -/
def putEntry (key value : Document) :
    List (Document × Document) → List (Document × Document)
  | [] => [(key, value)]
  | (other, old) :: rest =>
    if sameKey other key then (other, value) :: rest
    else (other, old) :: putEntry key value rest

/-- The entries of a mapping written as a list, later ones over earlier ones. -/
def entriesOf (written : List (Document × Document)) : List (Document × Document) :=
  written.foldl (fun entries entry => putEntry entry.1 entry.2 entries) []

/-! ## Reading -/

def field? (name : String) : List (Document × Document) → Option Document
  | [] => none
  | (text key, value) :: rest => if key = name then some value else field? name rest
  | _ :: rest => field? name rest

def showByte (quote : Char) (b : UInt8) : List Char :=
  let c := Char.ofNat b.toNat
  if c = quote then ['\\', quote]
  else if c = '\\' then ['\\', '\\']
  else if c = '\n' then ['\\', 'n']
  else if c = '\r' then ['\\', 'r']
  else if c = '\t' then ['\\', 't']
  else if 0x20 ≤ b && b < 0x7F then [c]
  else '\\' :: 'x' :: Chars.fixedDigits 16 2 b.toNat

/-- The form in which messages show a scalar that serves as a key. -/
def showKey : Document → String
  | null => "None"
  | bool value => if value then "True" else "False"
  | int value => toString value
  | float value => Decimal.showFloat value
  | text value => Text.quoted value
  | bytes value =>
    let quote := Chars.chooseQuote (value.map fun b => Char.ofNat b.toNat)
    String.ofList ('b' :: quote :: value.flatMap (showByte quote) ++ [quote])
  | moment shown => shown
  | list _ => "[...]"
  | set _ => "(...)"
  | map _ => "(...)"

end Document

end ChatCommands
