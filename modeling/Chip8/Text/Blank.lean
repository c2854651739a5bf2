/-!
# White space and the fields between separators

White space is Unicode's: the controls that end lines and pages, the separators of files, groups,
records and units, and the spaces of every width. `fields` cuts a text at the characters of a class
and keeps what stands between them, so that runs of separators, also at either end, count for
nothing.
-/

set_option autoImplicit false

namespace Chip8.Text

def isBlank (c : Char) : Bool :=
  let n := c.toNat
  (0x09 ≤ n && n ≤ 0x0D) || (0x1C ≤ n && n ≤ 0x20) || n == 0x85 || n == 0xA0 || n == 0x1680 ||
    (0x2000 ≤ n && n ≤ 0x200A) || n == 0x2028 || n == 0x2029 || n == 0x202F || n == 0x205F ||
    n == 0x3000

/-- A text without the characters of a class at its two ends. -/
def trim (cut : Char → Bool) (cs : List Char) : List Char :=
  ((cs.dropWhile cut).reverse.dropWhile cut).reverse

/-- The longest runs of characters that are no separators, in order. -/
def fields (separator : Char → Bool) : List Char → List (List Char)
  | [] => []
  | c :: rest =>
    if separator c then fields separator rest
    else
      match rest with
      | [] => [[c]]
      | d :: _ =>
        if separator d then [c] :: fields separator rest
        else
          match fields separator rest with
          | [] => [[c]]
          | f :: fs => (c :: f) :: fs

/-- The parts of a text between the occurrences of one character; there is always at least one. -/
def splitAt (mark : Char) : List Char → List (List Char)
  | [] => [[]]
  | c :: rest =>
    if c = mark then [] :: splitAt mark rest
    else
      match splitAt mark rest with
      | [] => [[c]]
      | p :: ps => (c :: p) :: ps

end Chip8.Text
