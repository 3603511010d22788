import ChatCommands.Failure
import ChatCommands.Text.Search
import ChatCommands.Value

/-!
# The order of values

Texts are ordered by code point, numbers by size with truth values counting as 0 and 1, moments by
instant, and lists by the first items that differ. Between other values there is no order, and none
between a moment with an offset and one without.
-/

namespace ChatCommands

namespace Value

def number? : Value → Option Int
  | bool value => some (if value then 1 else 0)
  | int value => some value
  | _ => none

mutual

/-- Whether two values are equal. A truth value may equal a number. -/
def same : Value → Value → Bool
  | null, null => true
  | text s, text t => s == t
  | moment s, moment t => s.isAware == t.isAware && s.instant == t.instant
  | list s, list t => sameItems s t
  | map s, map t => s.length == t.length && sameEntries s t
  | s, t =>
    match s.number?, t.number? with
    | some m, some n => m == n
    | _, _ => false

def sameItems : List Value → List Value → Bool
  | [], [] => true
  | s :: ss, t :: ts => same s t && sameItems ss ts
  | _, _ => false

/-- Whether each entry has an equal one among the others. -/
def sameEntries : List (String × Value) → List (String × Value) → Bool
  | [], _ => true
  | (key, s) :: rest, others =>
    (match others.lookup key with
      | some t => same s t
      | none => false) && sameEntries rest others

end

mutual

/-- Whether the first value comes before the second, if they have an order. -/
def before? : Value → Value → Except Failure Bool
  | text s, text t => .ok (Text.before s t)
  | moment s, moment t =>
    match s.before? t with
    | some answer => .ok answer
    | none => .error .mixedAwareness
  | list s, list t => beforeItems? s t
  | s, t =>
    match s.number?, t.number? with
    | some m, some n => .ok (decide (m < n))
    | _, _ => .error (.incomparable s.kind t.kind)

/-- The first items that differ decide, or else the shorter list comes first. -/
def beforeItems? : List Value → List Value → Except Failure Bool
  | _, [] => .ok false
  | [], _ :: _ => .ok true
  | s :: ss, t :: ts => if same s t then beforeItems? ss ts else before? s t

end

end Value

end ChatCommands
