import Chip8.Text.Blank
import Chip8.Text.Digit

/-!
# Integer numerals

How a user may write an integer: an optional sign, in base 16 an optional mark `0x`, and then digits
in either case and of any script, with single underscores between them and one after the mark.
Blanks around the numeral are passed over; of the white space only the four separators of ASCII are
not, since they separate.

A decimal numeral has at most 4300 digits, leading zeros included. In base 16 there is no bound.
-/

set_option autoImplicit false

namespace Chip8.Text.Numeral

/-- White space that may stand around a numeral. -/
def isPadding (c : Char) : Bool := isBlank c && !(0x1C ≤ c.toNat && c.toNat ≤ 0x1F)

/-- The ASCII digit for a decimal digit of any script; other characters stay. -/
def plainDigit (c : Char) : Char :=
  match digitValue? c with
  | some d => Char.ofNat (48 + d)
  | none => c

/-- The value of an ASCII digit or letter. -/
def digitValue (c : Char) : Nat :=
  let n := c.toNat
  if 48 ≤ n && n ≤ 57 then n - 48
  else if 65 ≤ n && n ≤ 90 then n - 55
  else if 97 ≤ n && n ≤ 122 then n - 87
  else 36

/-- The digits of a numeral after its first, single underscores between them. -/
def moreDigits (base : Nat) : List Char → Option (List Nat)
  | [] => some []
  | '_' :: c :: rest =>
    if digitValue c < base then (moreDigits base rest).map (digitValue c :: ·) else none
  | c :: rest =>
    if digitValue c < base then (moreDigits base rest).map (digitValue c :: ·) else none

/-- The digits of an unsigned numeral, at least one. -/
def digits (base : Nat) : List Char → Option (List Nat)
  | [] => none
  | c :: rest =>
    if digitValue c < base then (moreDigits base rest).map (digitValue c :: ·) else none

/-- The number that digits stand for, most significant first. -/
def ofDigits (base : Nat) (ds : List Nat) : Nat := ds.foldl (fun n d => n * base + d) 0

/-- An unsigned numeral without the mark of base 16. -/
def unmarked : List Char → List Char
  | '0' :: x :: rest =>
    if x = 'x' || x = 'X' then
      match rest with
      | '_' :: digits => digits
      | _ => rest
    else '0' :: x :: rest
  | cs => cs

/-- The sign of a numeral, and the rest of it. -/
def signed : List Char → Int × List Char
  | '-' :: rest => (-1, rest)
  | '+' :: rest => (1, rest)
  | cs => (1, cs)

/-- An integer in base 16. -/
def hex? (cs : List Char) : Option Int :=
  let (sign, body) := signed ((trim isPadding cs).map plainDigit)
  (digits 16 (unmarked body)).map fun ds => sign * ofDigits 16 ds

/-- The most digits that a decimal numeral may have. -/
def maxDecimalDigits : Nat := 4300

/-- An integer in base 10. -/
def decimal? (cs : List Char) : Option Int :=
  let (sign, body) := signed ((trim isPadding cs).map plainDigit)
  match digits 10 body with
  | some ds => if ds.length ≤ maxDecimalDigits then some (sign * ofDigits 10 ds) else none
  | none => none

end Chip8.Text.Numeral
