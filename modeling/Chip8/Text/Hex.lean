/-!
# Numbers in base 16

All addresses, words and bytes are shown in base 16, padded with zeros to the width of the thing
they name. The numbers are integers and can be negative when a host has put one in the machine by
hand: the sign then takes one place of the width, so that a column of numbers keeps its width.
-/

set_option autoImplicit false

namespace Chip8.Text.Hex

/-- The upper-case digit for a value below 16. -/
def digit (d : Nat) : Char :=
  if d < 10 then Char.ofNat (48 + d) else Char.ofNat (55 + d)

/-- The digits of a number, most significant first, and one digit for zero; `tail` comes after. -/
def digitsBefore (tail : List Char) (n : Nat) : List Char :=
  if n < 16 then digit n :: tail else digitsBefore (digit (n % 16) :: tail) (n / 16)
termination_by n
decreasing_by omega

/-- The digits of a number, most significant first, and one digit for zero. -/
def digits (n : Nat) : List Char := digitsBefore [] n

theorem digitsBefore_eq_append (tail : List Char) (n : Nat) :
    digitsBefore tail n = digits n ++ tail := by
  have append (more tail : List Char) (n : Nat) :
      digitsBefore (tail ++ more) n = digitsBefore tail n ++ more := by
    fun_induction digitsBefore tail n with
    | case1 tail n h => rw [digitsBefore, if_pos h, List.cons_append]
    | case2 tail n h ih => rw [digitsBefore, if_neg h, ← List.cons_append, ih]
  exact append tail [] n

/-- The last digit stands for the remainder, and those before it for the quotient. -/
theorem digits_eq (n : Nat) :
    digits n = if n < 16 then [digit n] else digits (n / 16) ++ [digit (n % 16)] := by
  rw [digits, digitsBefore]
  split
  · rfl
  · rw [digitsBefore_eq_append]

/-- `cs` with as many zeros before it as make it `width` long. -/
def zeroPad (width : Nat) (cs : List Char) : List Char :=
  List.replicate (width - cs.length) '0' ++ cs

/-- A number in at least `width` places, of which the sign of a negative one takes the first. -/
def padded (width : Nat) : Int → String
  | .ofNat n => String.ofList (zeroPad width (digits n))
  | .negSucc n => String.ofList ('-' :: zeroPad (width - 1) (digits (n + 1)))

/-- The marked form with no padding, in lower case; the sign goes before the mark. -/
def marked : Int → String
  | .ofNat n => "0x" ++ String.ofList ((digits n).map Char.toLower)
  | .negSucc n => "-0x" ++ String.ofList ((digits (n + 1)).map Char.toLower)

/-- A byte as two digits. -/
def byte (b : UInt8) : String := padded 2 b.toNat

/-- An address as the text forms of the machine show it. -/
def address (a : Int) : String := "0x" ++ padded 3 a

/-- A word as the text forms of the machine show it. -/
def word (w : Int) : String := "0x" ++ padded 4 w

end Chip8.Text.Hex
