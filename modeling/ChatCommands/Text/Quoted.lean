import ChatCommands.Text.Digits
import ChatCommands.Text.Printable

/-!
# Quoted text

The form in which a message shows a text given by the user: between quotes, with the quote, the
backslash and everything that does not print escaped. Single quotes are used, unless the text holds
a single quote and no double one.
-/

namespace ChatCommands

namespace Chars

/-- The form of one character between quotes. -/
def quotedChar (quote c : Char) : List Char :=
  if c = quote then ['\\', quote]
  else if c = '\\' then ['\\', '\\']
  else if c = '\n' then ['\\', 'n']
  else if c = '\r' then ['\\', 'r']
  else if c = '\t' then ['\\', 't']
  else if isPrintable c then [c]
  else if c.toNat < 0x100 then '\\' :: 'x' :: fixedDigits 16 2 c.toNat
  else if c.toNat < 0x10000 then '\\' :: 'u' :: fixedDigits 16 4 c.toNat
  else '\\' :: 'U' :: fixedDigits 16 8 c.toNat

def chooseQuote (cs : List Char) : Char :=
  if cs.contains '\'' && !cs.contains '"' then '"' else '\''

def quoted (cs : List Char) : List Char :=
  let quote := chooseQuote cs
  quote :: cs.flatMap (quotedChar quote) ++ [quote]

end Chars

namespace Text

def quoted (text : String) : String :=
  String.ofList (Chars.quoted text.toList)

end Text

end ChatCommands
