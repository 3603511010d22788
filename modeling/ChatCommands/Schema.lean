import ChatCommands.Document
import ChatCommands.Text.Utf8
import ChatCommands.Violation

/-!
# Checking records against a schema

A record is checked field by field in the order of declaration; every violation is collected, and
entries that no declared field takes are reported behind them, in the order in which they stand.
-/

namespace ChatCommands

/-- The outcome of a check: a value, or the violations found. -/
abbrev Checked (α : Type) := Except (List Violation) α

namespace Checked

/-- Two checks together: both values, or the violations of both. -/
def both {α β : Type} (first : Checked α) (second : Checked β) : Checked (α × β) :=
  match first, second with
  | .ok a, .ok b => .ok (a, b)
  | .ok _, .error vs => .error vs
  | .error vs, .ok _ => .error vs
  | .error vs, .error ws => .error (vs ++ ws)

def under {α : Type} (place : Place) (checked : Checked α) : Checked α :=
  checked.mapError (List.map (Violation.under place))

def broken {α : Type} (rule : Rule) : Checked α := .error [⟨[], rule⟩]

end Checked

namespace Schema

open Document (field?)

/-- A text. Bytes count as the text that they encode. -/
def text : Document → Checked String
  | .text s => .ok s
  | .bytes b =>
    match Utf8.decode b with
    | .ok s => .ok s
    | .error _ => .broken .isUnicode
  | _ => .broken .isText

/-- The items of a list, each checked at its index from `start` on. -/
def items {α : Type} (check : Document → Checked α) (start : Nat) : List Document → Checked (List α)
  | [] => .ok []
  | item :: rest =>
    ((check item).under (.index start)).both (items check (start + 1) rest) |>.map
      fun (head, tail) => head :: tail

/-- A list whose items pass a check. A set counts as a list. -/
def list {α : Type} (check : Document → Checked α) : Document → Checked (List α)
  | .list documents => items check 0 documents
  | .set documents => items check 0 documents
  | _ => .broken .isList

/-- A field that passes a check. An absent one has the default, if there is one. -/
def field {α : Type} (name : String) (default : Option α) (check : Document → Checked α)
    (entries : List (Document × Document)) : Checked α :=
  Checked.under (.field name) <|
    match field? name entries, default with
    | some value, _ => check value
    | none, some value => .ok value
    | none, none => .broken .isPresent

/-- The step of a path that leads through a key which is no text. -/
def keyPlace : Document → Place
  | .bool value => .index (if value then 1 else 0)
  | .int value =>
    if -9223372036854775808 ≤ value ∧ value ≤ 9223372036854775807 then .index value
    else .field (toString value)
  | key => .field key.showKey

/-- What is wrong with the key of an entry, given the declared names. -/
def keyViolation? (declared : List String) : Document → Option Violation
  | .text name => if declared.contains name then none else some ⟨[.field name], .isDeclared⟩
  | key => some ⟨[keyPlace key], .keyIsText⟩

/-- No entries but those of the declared fields. -/
def closed (declared : List String) (entries : List (Document × Document)) : Checked Unit :=
  match entries.filterMap fun entry => keyViolation? declared entry.1 with
  | [] => .ok ()
  | violations => .error violations

/-- The entries of a mapping that stands for a record of the named kind. -/
def record (kind : String) : Document → Checked (List (Document × Document))
  | .map entries => .ok entries
  | _ => .broken (.isRecord kind)

end Schema

end ChatCommands
