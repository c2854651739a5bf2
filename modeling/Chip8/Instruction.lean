import Chip8.Opcode
import Chip8.Operation

/-!
# Instructions

An instruction is an operation together with the operands its shape calls for, each in the range
that an instruction word can hold. This is what a program consists of; the operands of a direct
request by a host (`Operands`) are a looser thing, into which every instruction can be put.
-/

set_option autoImplicit false

namespace Chip8

inductive Instruction
  | clear
  | ret
  | address (op : AddressOp) (addr : Fin 4096)
  | immediate (op : ImmediateOp) (x : Nibble) (value : Fin 256)
  | pair (op : PairOp) (x y : Nibble)
  | draw (x y n : Nibble)
  | register (op : RegisterOp) (x : Nibble)
deriving DecidableEq, Repr

namespace Instruction

def operation : Instruction → Operation
  | .clear => .clear
  | .ret => .ret
  | .address op _ => .address op
  | .immediate op _ _ => .immediate op
  | .pair op _ _ => .pair op
  | .draw _ _ _ => .draw
  | .register op _ => .register op

def operands : Instruction → Operands
  | .clear | .ret => {}
  | .address _ addr => { addr := some addr.val }
  | .immediate _ x value => { x := some x.val, value := some value.val }
  | .pair _ x y => { x := some x.val, y := some y.val }
  | .draw x y n => { x := some x.val, y := some y.val, n := some n.val }
  | .register _ x => { x := some x.val }

end Instruction

end Chip8
