import Chip8.Operation

/-!
# Arithmetic on two registers

What the flagged and unflagged operations of group 8 compute from the two bytes, before the result
is cut to a byte: the value for the first register, and for the operations that have one, the flag.
The flag of an addition is its carry, that of a subtraction is set when there is no borrow, and that
of a shift is the bit which the shift drops.
-/

set_option autoImplicit false

namespace Chip8

/-- The uncut result and the flag of an operation on the values `a` and `b`. The second value does
not count in a shift. -/
def PairOp.compute (op : PairOp) (a b : UInt8) : Int × Option Bool :=
  match op with
  | .or => ((a ||| b).toNat, none)
  | .and => ((a &&& b).toNat, none)
  | .xor => ((a ^^^ b).toNat, none)
  | .add => (a.toNat + b.toNat, some (a.toNat + b.toNat > 0xFF))
  | .sub => ((a.toNat : Int) - b.toNat, some (a.toNat ≥ b.toNat))
  | .shr => ((a.toNat / 2 : Nat), some (a.toNat % 2 = 1))
  | .subn => ((b.toNat : Int) - a.toNat, some (b.toNat ≥ a.toNat))
  | .shl => (a.toNat * 2, some (a.toNat ≥ 0x80))
  | .skipEq | .skipNe | .load => (b.toNat, none)

end Chip8
