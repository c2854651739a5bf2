/-!
# The fixed sizes of the machine, and its font

Everything the rest of the library needs to know about the CHIP-8 as hardware: how much memory
there is and where a program goes, how many registers, return addresses, keys and pixels, and the
sixteen built-in glyphs. These are constants and nothing else, so that a size is written once and
every bound below can be traced to it.
-/

set_option autoImplicit false

namespace Chip8

/-- Bytes of main memory. -/
def memorySize : Nat := 4096

/-- The address at which programs are loaded and execution begins. -/
def programStart : Nat := 0x200

/-- The room between the start of a program and the end of memory. -/
def maxProgramSize : Nat := memorySize - programStart

/-- The general registers `V0` to `VF`. -/
def registerCount : Nat := 16

/-- How many calls can be open at once. -/
def stackSize : Nat := 16

/-- The keys of the hexadecimal keypad. -/
def keyCount : Nat := 16

def screenWidth : Nat := 64

def screenHeight : Nat := 32

def pixelCount : Nat := screenWidth * screenHeight

/-- The address of the glyph for digit 0; the others follow it in order. -/
def fontStart : Nat := 0x050

/-- Bytes of one glyph, one byte a row. -/
def glyphSize : Nat := 5

/-- The glyphs of the hexadecimal digits, four pixels wide and five rows tall. -/
def font : Array UInt8 := #[
  0xF0, 0x90, 0x90, 0x90, 0xF0,
  0x20, 0x60, 0x20, 0x20, 0x70,
  0xF0, 0x10, 0xF0, 0x80, 0xF0,
  0xF0, 0x10, 0xF0, 0x10, 0xF0,
  0x90, 0x90, 0xF0, 0x10, 0x10,
  0xF0, 0x80, 0xF0, 0x10, 0xF0,
  0xF0, 0x80, 0xF0, 0x90, 0xF0,
  0xF0, 0x10, 0x20, 0x40, 0x40,
  0xF0, 0x90, 0xF0, 0x90, 0xF0,
  0xF0, 0x90, 0xF0, 0x10, 0xF0,
  0xF0, 0x90, 0xF0, 0x90, 0x90,
  0xE0, 0x90, 0xE0, 0x90, 0xE0,
  0xF0, 0x80, 0x80, 0x80, 0xF0,
  0xE0, 0x90, 0x90, 0x90, 0xE0,
  0xF0, 0x80, 0xF0, 0x80, 0xF0,
  0xF0, 0x80, 0xF0, 0x80, 0x80]

/-- The flag register: arithmetic leaves its carry there, and drawing its collision. -/
def flagRegister : Nat := 0xF

end Chip8
