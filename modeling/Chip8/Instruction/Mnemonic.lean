import Chip8.Instruction.Decode

/-!
# Mnemonics

The text of an instruction, as traces and logs show it. The operation's word comes first, then its
operands: addresses in three hexadecimal digits and bytes in two, each marked `0x`, registers as `V`
and their digit, and the height of a sprite in decimal. What stands on both sides of the register in
`LD V3, DT` and `LD DT, V3` belongs to the operation.
-/

set_option autoImplicit false

namespace Chip8

open Text

def AddressOp.mnemonic : AddressOp → String
  | .jump => "JP"
  | .call => "CALL"
  | .loadIndex => "LD I,"
  | .jumpOffset => "JP V0,"

def ImmediateOp.mnemonic : ImmediateOp → String
  | .skipEq => "SE"
  | .skipNe => "SNE"
  | .load => "LD"
  | .add => "ADD"
  | .random => "RND"

def PairOp.mnemonic : PairOp → String
  | .skipEq => "SE"
  | .skipNe => "SNE"
  | .load => "LD"
  | .or => "OR"
  | .and => "AND"
  | .xor => "XOR"
  | .add => "ADD"
  | .sub => "SUB"
  | .shr => "SHR"
  | .subn => "SUBN"
  | .shl => "SHL"

/-- The text before and after the register. -/
def RegisterOp.around : RegisterOp → String × String
  | .skipPressed => ("SKP ", "")
  | .skipReleased => ("SKNP ", "")
  | .readDelay => ("LD ", ", DT")
  | .waitKey => ("LD ", ", K")
  | .setDelay => ("LD DT, ", "")
  | .setSound => ("LD ST, ", "")
  | .addIndex => ("ADD I, ", "")
  | .loadGlyph => ("LD F, ", "")
  | .storeDecimal => ("LD B, ", "")
  | .storeRegisters => ("LD [I], ", "")
  | .loadRegisters => ("LD ", ", [I]")

/-- The name of a register. -/
def registerName (x : Nat) : String := "V" ++ Hex.padded 1 x

def Instruction.mnemonic : Instruction → String
  | .clear => "CLS"
  | .ret => "RET"
  | .address op addr => op.mnemonic ++ " " ++ Hex.address addr.val
  | .immediate op x value =>
    op.mnemonic ++ " " ++ registerName x.val ++ ", 0x" ++ Hex.padded 2 value.val
  | .pair op x y => op.mnemonic ++ " " ++ registerName x.val ++ ", " ++ registerName y.val
  | .draw x y n =>
    "DRW " ++ registerName x.val ++ ", " ++ registerName y.val ++ ", " ++ toString n.val
  | .register op x => op.around.1 ++ registerName x.val ++ op.around.2

/-- The mnemonic of the instruction an opcode stands for; question marks and the word if it stands
for none. -/
def Opcode.mnemonic (o : Opcode) : String :=
  match o.decode with
  | .ok i => i.mnemonic
  | .error _ => "??? " ++ o.text

end Chip8
