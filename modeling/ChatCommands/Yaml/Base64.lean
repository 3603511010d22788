import ChatCommands.Text.Digits

/-!
# Base 64

Four characters write down three bytes. Characters outside of the alphabet are skipped, and a
padding sign counts only where it completes a group of four.
-/

namespace ChatCommands

namespace Base64

/-- The value of a character of the alphabet. -/
def digit? (c : Char) : Option Nat :=
  if 'A' ≤ c ∧ c ≤ 'Z' then some (c.toNat - 'A'.toNat)
  else if 'a' ≤ c ∧ c ≤ 'z' then some (c.toNat - 'a'.toNat + 26)
  else if '0' ≤ c ∧ c ≤ '9' then some (c.toNat - '0'.toNat + 52)
  else if c = '+' then some 62
  else if c = '/' then some 63
  else none

/-- The bytes that a text writes down. `count` characters of the group of four have been read,
`left` holds their bits that are in no byte yet, and `pads` is the number of padding signs behind
them. -/
def decodeFrom (count left pads : Nat) : List Char → Option (List UInt8)
  | [] => if count = 0 then some [] else none
  | c :: rest =>
    if c = '=' then
      if 2 ≤ count ∧ 4 ≤ count + pads + 1 then some []
      else decodeFrom count left (if 2 ≤ count then pads + 1 else pads) rest
    else
      match digit? c with
      | none => decodeFrom count left pads rest
      | some value =>
        match count with
        | 0 => decodeFrom 1 value 0 rest
        | 1 => (decodeFrom 2 (value % 16) 0 rest).map (UInt8.ofNat (left * 4 + value / 16) :: ·)
        | 2 => (decodeFrom 3 (value % 4) 0 rest).map (UInt8.ofNat (left * 16 + value / 4) :: ·)
        | _ => (decodeFrom 0 0 0 rest).map (UInt8.ofNat (left * 64 + value) :: ·)

/-- The bytes that a text of the first 128 characters writes down. -/
def decode (cs : List Char) : Option (List UInt8) :=
  if cs.all (·.toNat < 128) then decodeFrom 0 0 0 cs else none

end Base64

end ChatCommands
