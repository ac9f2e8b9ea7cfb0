import ProxyAuth.Text.Combining
import ProxyAuth.Text.Numeral
import ProxyAuth.Text.Printable

/-!
# Quoted texts in messages

Messages show texts taken from the outside between double quotes.  A quote or backslash gets a
backslash, four control characters have letters, and every other character that is not printable
or attaches to its neighbour is shown by its code point.
-/

namespace ProxyAuth.Text

/-- One character inside a quoted text. -/
def quotedChar (c : Char) : Text :=
  if c = '"' ∨ c = '\\' then ['\\', c]
  else if c = '\x00' then ['\\', '0']
  else if c = '\t' then ['\\', 't']
  else if c = '\r' then ['\\', 'r']
  else if c = '\n' then ['\\', 'n']
  else if isCombining c || !isPrintable c then
    ['\\', 'u', '\x7b'] ++ hexadecimal c.toNat ++ ['\x7d']
  else [c]

/-- The text between double quotes. -/
def quoted (s : Text) : Text := '"' :: s.flatMap quotedChar ++ ['"']

end ProxyAuth.Text
