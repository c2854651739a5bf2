import Chip8.Program.Words

/-!
# Programs as text

There are two ways to write a program. An *inline* program is one line of words between blanks,
commas and semicolons. A *listing* has lines, each of which may end in a comment after a semicolon,
and words between blanks.

They also differ in which of several mistakes they report. An inline program is read word by word,
so its first bad word is reported. A listing is read as a whole before it is packed, so a word that
is no number is reported before one that is too large, wherever they stand.
-/

set_option autoImplicit false

namespace Chip8.Program

open Text

/-- What separates the words of an inline program. -/
def isSeparator (c : Char) : Bool := isBlank c || c == ',' || c == ';'

/-- The words of an inline program, unread. -/
def inlineWords (cs : List Char) : List (List Char) := fields isSeparator cs

/-- The image of an inline program. -/
def ofInline (cs : List Char) : Except SourceError (List UInt8) :=
  ((inlineWords cs).mapM fun w => readWord w >>= wordBytes).map List.flatten

/-- A line of a listing without its comment. -/
def uncommented (line : List Char) : List Char := line.takeWhile (· ≠ ';')

/-- The words of a listing, unread. -/
def listingWords (cs : List Char) : List (List Char) :=
  (splitAt '\n' cs).flatMap fun line => fields isBlank (uncommented line)

/-- The image of a listing. -/
def ofListing (cs : List Char) : Except SourceError (List UInt8) := do
  let ws ← (listingWords cs).mapM readWord
  ofWords ws

end Chip8.Program
