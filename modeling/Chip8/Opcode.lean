import Chip8.Text.Hex

/-!
# Opcodes: an instruction word cut into nibbles

The instruction set is read nibble by nibble: the first says which group of instructions a word
belongs to, and the other three are an address, a register and a byte, or three separate operands,
as the group decides. Cutting a word loses nothing and cannot fail, whatever integer it is cut
from: only the low sixteen bits count, in two's complement.
-/

set_option autoImplicit false

namespace Chip8

abbrev Nibble := Fin 16

/-- A sixteen-bit instruction word as its four nibbles, most significant first. -/
structure Opcode where
  group : Nibble
  first : Nibble
  second : Nibble
  third : Nibble
deriving DecidableEq, Repr

namespace Opcode

/-- The nibble of `v` whose lowest bit has weight `unit`. -/
def nibbleAt (v : Int) (unit : Nat) : Nibble := ⟨(v / unit % 16).toNat, by omega⟩

/-- The opcode in two consecutive bytes; of each only the low eight bits count. -/
def ofBytes (high low : Int) : Opcode :=
  ⟨nibbleAt high 16, nibbleAt high 1, nibbleAt low 16, nibbleAt low 1⟩

/-- The opcode of an instruction word; of the word only the low sixteen bits count. -/
def ofWord (w : Int) : Opcode := ofBytes (w / 256 % 256) (w % 256)

def word (o : Opcode) : Nat :=
  o.group.val * 4096 + o.first.val * 256 + o.second.val * 16 + o.third.val

/-- The last three nibbles as an address. -/
def address (o : Opcode) : Fin 4096 :=
  ⟨o.first.val * 256 + o.second.val * 16 + o.third.val, by omega⟩

/-- The last two nibbles as a byte. -/
def immediate (o : Opcode) : Fin 256 := ⟨o.second.val * 16 + o.third.val, by omega⟩

def text (o : Opcode) : String := Text.Hex.word o.word

end Opcode

end Chip8
