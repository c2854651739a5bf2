/-!
# Operations: what an instruction asks for, without its operands

The thirty-four instructions fall into shapes: four take an address, five a register and a byte,
eleven a pair of registers, eleven a single register, one draws, two take nothing. The shape is the
constructor here, so that decoding, encoding and printing speak once about each shape. One more
operation, `invalid`, stands for words outside the instruction set.

Each operation has a key, the name under which hosts ask for it directly.
-/

set_option autoImplicit false

namespace Chip8

/-- What can be done with an address. -/
inductive AddressOp
  | jump
  | call
  /-- Set the index register. -/
  | loadIndex
  /-- Jump to the address plus `V0`. -/
  | jumpOffset
deriving DecidableEq, Repr

/-- What can be done with a register and a byte. -/
inductive ImmediateOp
  | skipEq
  | skipNe
  | load
  | add
  | random
deriving DecidableEq, Repr

/-- What can be done with two registers. -/
inductive PairOp
  | skipEq
  | skipNe
  | load
  | or
  | and
  | xor
  | add
  | sub
  | shr
  /-- Subtraction the other way round. -/
  | subn
  | shl
deriving DecidableEq, Repr

/-- What can be done with one register. -/
inductive RegisterOp
  /-- Skip if the key with the number in the register is held. -/
  | skipPressed
  | skipReleased
  | readDelay
  | waitKey
  | setDelay
  | setSound
  | addIndex
  /-- Point the index at the glyph of a digit. -/
  | loadGlyph
  /-- Store the three decimal digits. -/
  | storeDecimal
  | storeRegisters
  | loadRegisters
deriving DecidableEq, Repr

/-- The operations of the machine, by the shape of their operands. -/
inductive Operation
  | clear
  | ret
  | address (op : AddressOp)
  | immediate (op : ImmediateOp)
  | pair (op : PairOp)
  | draw
  | register (op : RegisterOp)
  | invalid
deriving DecidableEq, Repr

def AddressOp.all : List AddressOp := [.jump, .call, .loadIndex, .jumpOffset]

def ImmediateOp.all : List ImmediateOp := [.skipEq, .skipNe, .load, .add, .random]

def PairOp.all : List PairOp :=
  [.skipEq, .skipNe, .load, .or, .and, .xor, .add, .sub, .shr, .subn, .shl]

def RegisterOp.all : List RegisterOp :=
  [.skipPressed, .skipReleased, .readDelay, .waitKey, .setDelay, .setSound, .addIndex, .loadGlyph,
    .storeDecimal, .storeRegisters, .loadRegisters]

def AddressOp.key : AddressOp → String
  | .jump => "OP_JP"
  | .call => "OP_CALL"
  | .loadIndex => "OP_LD_I"
  | .jumpOffset => "OP_JP_V0"

def ImmediateOp.key : ImmediateOp → String
  | .skipEq => "OP_SE_IMM"
  | .skipNe => "OP_SNE_IMM"
  | .load => "OP_LD_IMM"
  | .add => "OP_ADD_IMM"
  | .random => "OP_RND"

def PairOp.key : PairOp → String
  | .skipEq => "OP_SE_REG"
  | .skipNe => "OP_SNE_REG"
  | .load => "OP_LD_REG"
  | .or => "OP_OR"
  | .and => "OP_AND"
  | .xor => "OP_XOR"
  | .add => "OP_ADD_REG"
  | .sub => "OP_SUB"
  | .shr => "OP_SHR"
  | .subn => "OP_SUBN"
  | .shl => "OP_SHL"

def RegisterOp.key : RegisterOp → String
  | .skipPressed => "OP_SKP"
  | .skipReleased => "OP_SKNP"
  | .readDelay => "OP_LD_VX_DT"
  | .waitKey => "OP_LD_VX_K"
  | .setDelay => "OP_LD_DT_VX"
  | .setSound => "OP_LD_ST_VX"
  | .addIndex => "OP_ADD_I_VX"
  | .loadGlyph => "OP_LD_F_VX"
  | .storeDecimal => "OP_LD_B_VX"
  | .storeRegisters => "OP_LD_MEM_VX"
  | .loadRegisters => "OP_LD_VX_MEM"

namespace Operation

/-- Every operation, `invalid` included. -/
def all : List Operation :=
  [.clear, .ret, .draw, .invalid] ++ AddressOp.all.map .address ++ ImmediateOp.all.map .immediate ++
    PairOp.all.map .pair ++ RegisterOp.all.map .register

/-- The name under which a host asks for the operation. -/
def key : Operation → String
  | .clear => "OP_CLS"
  | .ret => "OP_RET"
  | .address op => op.key
  | .immediate op => op.key
  | .pair op => op.key
  | .draw => "OP_DRW"
  | .register op => op.key
  | .invalid => "OP_INVALID"

def ofKey? (k : String) : Option Operation := all.find? (·.key == k)

/-- The operations that write their result and then go on to the next instruction. For these the
room to go on is looked for before anything is written, so that they fail whole or not at all. -/
def fallsThrough : Operation → Bool
  | .clear | .draw => true
  | .ret | .invalid => false
  | .address op => op = .loadIndex
  | .immediate op => op ≠ .skipEq ∧ op ≠ .skipNe
  | .pair op => op ≠ .skipEq ∧ op ≠ .skipNe
  | .register op => op ≠ .skipPressed ∧ op ≠ .skipReleased ∧ op ≠ .waitKey

end Operation

/-- The names of the operands. -/
inductive Operand
  | x
  | y
  | n
  | value
  | addr
deriving DecidableEq, Repr

def Operand.name : Operand → String
  | .x => "x"
  | .y => "y"
  | .n => "n"
  | .value => "value"
  | .addr => "addr"

/-- The operands that come with a request. A host can leave any of them out, or give numbers that
no instruction word holds. `raw` and `reason` describe a word that is no instruction. -/
structure Operands where
  x : Option Int := none
  y : Option Int := none
  n : Option Int := none
  value : Option Int := none
  addr : Option Int := none
  raw : Option Int := none
  reason : Option String := none
deriving DecidableEq, Repr

def Operands.get? (a : Operands) : Operand → Option Int
  | .x => a.x
  | .y => a.y
  | .n => a.n
  | .value => a.value
  | .addr => a.addr

end Chip8
