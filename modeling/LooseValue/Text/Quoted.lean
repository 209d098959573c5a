import LooseValue.Text.GraphemeExtend
import LooseValue.Text.Printable

/-!
# Quoted texts

A quoted text stands between double quotation marks. Inside, the mark itself, the backslash and
the characters that would not show are escaped; every escape starts with a backslash and says by
itself where it ends.
-/

set_option autoImplicit false

namespace LooseValue

/-- The escape of a character by its code point. -/
def escapeCodePoint (c : Char) : List Char :=
  '\\' :: 'u' :: '\x7b' :: (Nat.toDigits 16 c.toNat ++ ['\x7d'])

/-- How a character is written inside a quoted text. -/
def escape (c : Char) : List Char :=
  if c = '"' then ['\\', '"']
  else if c = '\\' then ['\\', '\\']
  else if c = '\n' then ['\\', 'n']
  else if c = '\r' then ['\\', 'r']
  else if c = '\t' then ['\\', 't']
  else if c = '\x00' then ['\\', '0']
  else if extendsGrapheme c || !isPrintable c then escapeCodePoint c
  else [c]

def quoted (text : List Char) : List Char := '"' :: (text.flatMap escape ++ ['"'])

end LooseValue
