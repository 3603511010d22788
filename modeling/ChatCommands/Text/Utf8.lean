import ChatCommands.Text.Digits

/-!
# Decoding UTF-8

A strict decoder that names the bytes at fault. A sequence is at fault up to the byte that cannot
continue it; a sequence that the end cuts short is at fault up to the end.
-/

namespace ChatCommands

namespace Utf8

/-! ## Faults -/

/-- What is wrong with a sequence of bytes. -/
inductive Cause where
  | invalidStart
  -- the byte behind does not continue the sequence
  | invalidContinuation
  | unexpectedEnd
deriving DecidableEq

/-- A fault: its cause, its first byte, and the positions of its first and last byte. -/
structure Fault where
  cause : Cause
  byte : UInt8
  first : Nat
  last : Nat
deriving DecidableEq

def Cause.message : Cause → String
  | invalidStart => "invalid start byte"
  | invalidContinuation => "invalid continuation byte"
  | unexpectedEnd => "unexpected end of data"

def Fault.message (f : Fault) : String :=
  let place :=
    if f.first = f.last then
      "byte 0x" ++ String.ofList (Chars.fixedDigits 16 2 f.byte.toNat) ++ " in position " ++
        toString f.first
    else "bytes in position " ++ toString f.first ++ "-" ++ toString f.last
  "'utf-8' codec can't decode " ++ place ++ ": " ++ f.cause.message

/-! ## Decoding -/

def continues (b : UInt8) : Bool := 0x80 ≤ b && b < 0xC0

/-- Whether the second byte of a sequence fits the first one: it continues the sequence, and the
character is neither written too long, nor half a surrogate pair, nor above U+10FFFF. -/
def fits (first second : UInt8) : Bool :=
  continues second &&
    !(first == 0xE0 && second < 0xA0) && !(first == 0xED && 0xA0 ≤ second) &&
    !(first == 0xF0 && second < 0x90) && !(first == 0xF4 && 0x90 ≤ second)

/-- The payload of a byte that continues a sequence. -/
def payload (b : UInt8) : Nat := b.toNat % 64

/-- The number of bytes of the sequence that a byte starts, `0` if it starts none. -/
def width (first : UInt8) : Nat :=
  if first < 0x80 then 1
  else if first < 0xC2 then 0
  else if first < 0xE0 then 2
  else if first < 0xF0 then 3
  else if first < 0xF5 then 4
  else 0

/-- The characters that the bytes encode; `position` is the position of the first byte. -/
def decodeFrom (position : Nat) : List UInt8 → Except Fault (List Char)
  | [] => .ok []
  | a :: rest =>
    let fault (cause : Cause) (length : Nat) : Except Fault (List Char) :=
      .error ⟨cause, a, position, position + length - 1⟩
    match width a, rest with
    | 1, rest => do return Char.ofNat a.toNat :: (← decodeFrom (position + 1) rest)
    | 2, b :: rest =>
      if !fits a b then fault .invalidContinuation 1
      else do
        let code := a.toNat % 32 * 64 + payload b
        return Char.ofNat code :: (← decodeFrom (position + 2) rest)
    | 3, b :: rest =>
      if !fits a b then fault .invalidContinuation 1
      else
        match rest with
        | [] => fault .unexpectedEnd 2
        | c :: rest =>
          if !continues c then fault .invalidContinuation 2
          else do
            let code := (a.toNat % 16 * 64 + payload b) * 64 + payload c
            return Char.ofNat code :: (← decodeFrom (position + 3) rest)
    | 4, b :: rest =>
      if !fits a b then fault .invalidContinuation 1
      else
        match rest with
        | [] => fault .unexpectedEnd 2
        | c :: rest =>
          if !continues c then fault .invalidContinuation 2
          else
            match rest with
            | [] => fault .unexpectedEnd 3
            | d :: rest =>
              if !continues d then fault .invalidContinuation 3
              else do
                let code := ((a.toNat % 8 * 64 + payload b) * 64 + payload c) * 64 + payload d
                return Char.ofNat code :: (← decodeFrom (position + 4) rest)
    | 0, _ => fault .invalidStart 1
    | _, _ => fault .unexpectedEnd 1

def decode (bytes : List UInt8) : Except Fault String := do
  return String.ofList (← decodeFrom 0 bytes)

end Utf8

namespace Chars

/-- The text with every line break, `\r\n` or a lone `\r`, written as `\n`. -/
def unifyBreaks : List Char → List Char
  | [] => []
  | '\r' :: '\n' :: rest => '\n' :: unifyBreaks rest
  | c :: rest => (if c = '\r' then '\n' else c) :: unifyBreaks rest

end Chars

namespace Text

def unifyBreaks (text : String) : String :=
  String.ofList (Chars.unifyBreaks text.toList)

end Text

end ChatCommands
