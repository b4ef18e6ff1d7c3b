import PspBoot.Text.Hex
import PspBoot.Text.Printable

/-!
# Quoted text

A text inside a message is set in double quotes so that its ends can be seen.  The quote, the
backslash and five controls have short escapes; any other character that is not shown as itself
is written as its code point in braces.
-/

namespace PspBoot.Text.Quoted

/-- How one character is written between the quotes. -/
def escape (c : Char) : List Char :=
  if c = '"' then ['\\', '"']
  else if c = '\\' then ['\\', '\\']
  else if c = '\x00' then ['\\', '0']
  else if c = '\t' then ['\\', 't']
  else if c = '\n' then ['\\', 'n']
  else if c = '\r' then ['\\', 'r']
  else if Printable.isPrintable c then [c]
  else '\\' :: 'u' :: Char.ofNat 0x7B :: Hex.shortest c.toNat ++ [Char.ofNat 0x7D]

/-- The text between double quotes, every character in its written form. -/
def encode (text : List Char) : List Char :=
  '"' :: text.flatMap escape ++ ['"']

end PspBoot.Text.Quoted
