import Chip8.Instruction

/-!
# Decoding

`Opcode.decode` finds the instruction that an opcode stands for, or the reason why it stands for
none. It never guesses: a word is accepted only if the instruction set lists it, and then every
nibble that is an operand goes into the instruction, so that the word can be read back from it
(`Chip8.Instruction.Encode`).
-/

set_option autoImplicit false

namespace Chip8

/-- Why a word is no instruction. -/
inductive InvalidReason
  /-- Group 0 holds calls of the host's own machine code besides the two listed words. -/
  | machineRoutine
  /-- A comparison of two registers must end in 0. -/
  | lowNibble (n : Nibble)
  | registerOperation (n : Nibble)
  | keyOperation (selector : Fin 256)
  | miscOperation (selector : Fin 256)
deriving DecidableEq, Repr

def InvalidReason.text : InvalidReason → String
  | .machineRoutine => "machine code routines (SYS) are not supported"
  | .lowNibble n => "low nibble must be 0, got 0x" ++ Text.Hex.padded 1 n.val
  | .registerOperation n => "unknown register operation 0x" ++ Text.Hex.padded 1 n.val
  | .keyOperation s => "unknown key operation 0x" ++ Text.Hex.padded 2 s.val
  | .miscOperation s => "unknown 0xF operation 0x" ++ Text.Hex.padded 2 s.val

/-- The register operation of group 8 that the last nibble selects. -/
def PairOp.ofSelector? (n : Nibble) : Option PairOp :=
  match n.val with
  | 0x0 => some .load
  | 0x1 => some .or
  | 0x2 => some .and
  | 0x3 => some .xor
  | 0x4 => some .add
  | 0x5 => some .sub
  | 0x6 => some .shr
  | 0x7 => some .subn
  | 0xE => some .shl
  | _ => none

/-- The operation of group F that the last byte selects. -/
def RegisterOp.ofSelector? (selector : Fin 256) : Option RegisterOp :=
  match selector.val with
  | 0x07 => some .readDelay
  | 0x0A => some .waitKey
  | 0x15 => some .setDelay
  | 0x18 => some .setSound
  | 0x1E => some .addIndex
  | 0x29 => some .loadGlyph
  | 0x33 => some .storeDecimal
  | 0x55 => some .storeRegisters
  | 0x65 => some .loadRegisters
  | _ => none

namespace Opcode

/-- A comparison of two registers, which leaves no use for the last nibble. -/
def decodeComparison (op : PairOp) (o : Opcode) : Except InvalidReason Instruction :=
  if o.third.val = 0 then .ok (.pair op o.first o.second) else .error (.lowNibble o.third)

def decodeSystem (o : Opcode) : Except InvalidReason Instruction :=
  if o.address.val = 0x0E0 then .ok .clear
  else if o.address.val = 0x0EE then .ok .ret
  else .error .machineRoutine

def decodeArithmetic (o : Opcode) : Except InvalidReason Instruction :=
  match PairOp.ofSelector? o.third with
  | some op => .ok (.pair op o.first o.second)
  | none => .error (.registerOperation o.third)

def decodeKeys (o : Opcode) : Except InvalidReason Instruction :=
  if o.immediate.val = 0x9E then .ok (.register .skipPressed o.first)
  else if o.immediate.val = 0xA1 then .ok (.register .skipReleased o.first)
  else .error (.keyOperation o.immediate)

def decodeMisc (o : Opcode) : Except InvalidReason Instruction :=
  match RegisterOp.ofSelector? o.immediate with
  | some op => .ok (.register op o.first)
  | none => .error (.miscOperation o.immediate)

/-- The instruction an opcode stands for, or why it stands for none. -/
def decode (o : Opcode) : Except InvalidReason Instruction :=
  match o.group.val with
  | 0x0 => o.decodeSystem
  | 0x1 => .ok (.address .jump o.address)
  | 0x2 => .ok (.address .call o.address)
  | 0x3 => .ok (.immediate .skipEq o.first o.immediate)
  | 0x4 => .ok (.immediate .skipNe o.first o.immediate)
  | 0x5 => o.decodeComparison .skipEq
  | 0x6 => .ok (.immediate .load o.first o.immediate)
  | 0x7 => .ok (.immediate .add o.first o.immediate)
  | 0x8 => o.decodeArithmetic
  | 0x9 => o.decodeComparison .skipNe
  | 0xA => .ok (.address .loadIndex o.address)
  | 0xB => .ok (.address .jumpOffset o.address)
  | 0xC => .ok (.immediate .random o.first o.immediate)
  | 0xD => .ok (.draw o.first o.second o.third)
  | 0xE => o.decodeKeys
  | _ => o.decodeMisc

end Opcode

/-- What a word means, in the terms of the operations: the operation to ask for and its operands.
A word that is no instruction asks for `invalid`, which names the word. -/
structure Decoded where
  operation : Operation
  operands : Operands
  reason : Option InvalidReason
deriving DecidableEq, Repr

namespace Decoded

def ofOpcode (o : Opcode) : Decoded :=
  match o.decode with
  | .ok i => ⟨i.operation, i.operands, none⟩
  | .error r => ⟨.invalid, { raw := some o.word }, some r⟩

def valid (d : Decoded) : Bool := d.reason.isNone

end Decoded

end Chip8
