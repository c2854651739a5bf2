import Chip8.Instruction.Decode

/-!
# Encoding

`Instruction.encode` writes an instruction as the opcode that stands for it. It is the other half of
`Opcode.decode`: decoding an encoded instruction gives the instruction back, and an opcode that
decodes at all is the encoding of what it decodes to. The unused register of the two shifts is part
of the instruction, so nothing of the word is lost there either.
-/

set_option autoImplicit false

namespace Chip8

def AddressOp.group : AddressOp → Nibble
  | .jump => 0x1
  | .call => 0x2
  | .loadIndex => 0xA
  | .jumpOffset => 0xB

def ImmediateOp.group : ImmediateOp → Nibble
  | .skipEq => 0x3
  | .skipNe => 0x4
  | .load => 0x6
  | .add => 0x7
  | .random => 0xC

def PairOp.group : PairOp → Nibble
  | .skipEq => 0x5
  | .skipNe => 0x9
  | _ => 0x8

/-- The last nibble of an instruction on two registers. -/
def PairOp.selector : PairOp → Nibble
  | .skipEq | .skipNe | .load => 0x0
  | .or => 0x1
  | .and => 0x2
  | .xor => 0x3
  | .add => 0x4
  | .sub => 0x5
  | .shr => 0x6
  | .subn => 0x7
  | .shl => 0xE

def RegisterOp.group : RegisterOp → Nibble
  | .skipPressed | .skipReleased => 0xE
  | _ => 0xF

/-- The last byte of an instruction on one register. -/
def RegisterOp.selector : RegisterOp → Fin 256
  | .skipPressed => 0x9E
  | .skipReleased => 0xA1
  | .readDelay => 0x07
  | .waitKey => 0x0A
  | .setDelay => 0x15
  | .setSound => 0x18
  | .addIndex => 0x1E
  | .loadGlyph => 0x29
  | .storeDecimal => 0x33
  | .storeRegisters => 0x55
  | .loadRegisters => 0x65

namespace Opcode

/-- A group and a twelve-bit address. -/
def ofAddress (group : Nibble) (addr : Fin 4096) : Opcode :=
  ⟨group, ⟨addr.val / 256, by omega⟩, ⟨addr.val / 16 % 16, by omega⟩, ⟨addr.val % 16, by omega⟩⟩

/-- A group, a register and a byte. -/
def ofImmediate (group x : Nibble) (value : Fin 256) : Opcode :=
  ⟨group, x, ⟨value.val / 16, by omega⟩, ⟨value.val % 16, by omega⟩⟩

end Opcode

/-- The opcode that stands for an instruction. -/
def Instruction.encode : Instruction → Opcode
  | .clear => .ofAddress 0x0 0x0E0
  | .ret => .ofAddress 0x0 0x0EE
  | .address op addr => .ofAddress op.group addr
  | .immediate op x value => .ofImmediate op.group x value
  | .pair op x y => ⟨op.group, x, y, op.selector⟩
  | .draw x y n => ⟨0xD, x, y, n⟩
  | .register op x => .ofImmediate op.group x op.selector

namespace Opcode

@[simp] theorem address_ofAddress (g : Nibble) (a : Fin 4096) : (ofAddress g a).address = a := by
  apply Fin.ext
  simp only [ofAddress, address]
  omega

@[simp] theorem immediate_ofImmediate (g x : Nibble) (v : Fin 256) :
    (ofImmediate g x v).immediate = v := by
  apply Fin.ext
  simp only [ofImmediate, immediate]
  omega

theorem ofAddress_address (o : Opcode) : ofAddress o.group o.address = o := by
  obtain ⟨g, a, b, c⟩ := o
  simp only [ofAddress, address, Opcode.mk.injEq, Fin.ext_iff, true_and]
  omega

theorem ofImmediate_immediate (o : Opcode) : ofImmediate o.group o.first o.immediate = o := by
  obtain ⟨g, a, b, c⟩ := o
  simp only [ofImmediate, immediate, Opcode.mk.injEq, Fin.ext_iff, true_and]
  omega

end Opcode

end Chip8
