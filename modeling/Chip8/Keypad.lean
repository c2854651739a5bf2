import Chip8.Text.Blank
import Chip8.Text.Lowercase
import Chip8.Text.Quoted

/-!
# The keypad on a keyboard

The sixteen keys of the hexadecimal keypad lie on the left of an English keyboard, four rows of
four. A list of keys is written with commas; capitals, blanks and empty parts do not matter.
-/

set_option autoImplicit false

namespace Chip8.Keypad

open Text

/-- The character of each key, and the key's number. -/
def layout : List (Char × Nat) := [
  ('1', 0x1), ('2', 0x2), ('3', 0x3), ('4', 0xC),
  ('q', 0x4), ('w', 0x5), ('e', 0x6), ('r', 0xD),
  ('a', 0x7), ('s', 0x8), ('d', 0x9), ('f', 0xE),
  ('z', 0xA), ('x', 0x0), ('c', 0xB), ('v', 0xF)]

/-- The key with a name of one character. -/
def find? : List Char → Option Nat
  | [c] => (layout.find? (·.1 == c)).map (·.2)
  | _ => none

/-- A part of a list of keys as it counts. -/
def normalized (part : List Char) : List Char := lower (trim isBlank part)

/-- The keys that a list names, in order, or the first part which names none. -/
def ofParts : List (List Char) → Except (List Char) (List Nat)
  | [] => .ok []
  | part :: rest =>
    let name := normalized part
    if name = [] then ofParts rest
    else
      match find? name with
      | some pin => (ofParts rest).map (pin :: ·)
      | none => .error name

/-- The keys that a text names. -/
def ofText (cs : List Char) : Except (List Char) (List Nat) := ofParts (splitAt ',' cs)

/-- The report on a part that names no key. -/
def unknownKeyMessage (name : List Char) : String :=
  "Unknown key: " ++ String.ofList (quoteChars name)

end Chip8.Keypad
