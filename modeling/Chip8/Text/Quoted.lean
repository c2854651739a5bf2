import Chip8.Text.Hex
import Chip8.Text.Printable

/-!
# Quoted text

Messages show a text that a user has typed in quotes, with everything in it visible. Single quotes
are preferred; double quotes are taken if the text has a single quote and no double one. The quote,
the backslash and the three common controls have short escapes, and other characters that are not
shown are escaped by their code, in two, four or eight digits.
-/

set_option autoImplicit false

namespace Chip8.Text

/-- A code in lower-case digits. -/
def codeDigits (width : Nat) (n : Nat) : List Char :=
  (Hex.zeroPad width (Hex.digits n)).map Char.toLower

/-- One character of a quoted text. -/
def quoteChar (mark c : Char) : List Char :=
  if c = mark || c = '\\' then ['\\', c]
  else if c = '\n' then ['\\', 'n']
  else if c = '\r' then ['\\', 'r']
  else if c = '\t' then ['\\', 't']
  else if isPrintable c then [c]
  else if c.toNat ≤ 0xFF then '\\' :: 'x' :: codeDigits 2 c.toNat
  else if c.toNat ≤ 0xFFFF then '\\' :: 'u' :: codeDigits 4 c.toNat
  else '\\' :: 'U' :: codeDigits 8 c.toNat

/-- The mark around a text. -/
def quoteMark (cs : List Char) : Char :=
  if cs.contains '\'' && !cs.contains '"' then '"' else '\''

def quoteChars (cs : List Char) : List Char :=
  let mark := quoteMark cs
  mark :: cs.flatMap (quoteChar mark) ++ [mark]

def quote (s : String) : String := String.ofList (quoteChars s.toList)

end Chip8.Text
