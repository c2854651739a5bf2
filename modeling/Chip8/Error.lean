import Chip8.Text.Hex

/-!
# What can go wrong

Two kinds of failure are kept apart. A *fault* is something a program does or is: it runs out of
memory, calls too deep, or holds a word that is no instruction. A *misuse* is something only a host
can bring about, by asking for a register that does not exist, leaving an operand out, or putting a
number into the machine that does not fit there. A machine that only ever runs programs has faults
and no misuses.
-/

set_option autoImplicit false

namespace Chip8

open Text

/-- A failure of a program. -/
inductive Fault
  | programTooLarge (size limit : Int)
  /-- A word that is no instruction, where it stands, and why; the reason may be empty. -/
  | unknownOpcode (word pc : Int) (reason : String)
  | stackOverflow (pc : Int)
  | stackUnderflow (pc : Int)
  /-- A glyph was asked for a value that is no hexadecimal digit. -/
  | invalidCharacter (value : Int)
  /-- The program counter would leave memory. -/
  | pcOutOfRange (pc : Int)
deriving DecidableEq, Repr

def Fault.message : Fault → String
  | .programTooLarge size limit =>
    "Program is too large. Maximum program size is " ++ toString limit ++ " bytes. Got " ++
      toString size ++ " bytes."
  | .unknownOpcode word pc reason =>
    "Unknown opcode " ++ Hex.word word ++ " at " ++ Hex.address pc ++
      (if reason = "" then "" else ": " ++ reason)
  | .stackOverflow pc => "Stack overflow at " ++ Hex.address pc
  | .stackUnderflow pc => "Stack underflow at " ++ Hex.address pc
  | .invalidCharacter value => "No font sprite for character 0x" ++ Hex.padded 2 value
  | .pcOutOfRange pc => "Program counter out of range: " ++ Hex.word pc

/-- A failure of a host. -/
inductive Misuse
  /-- No operation has this key. -/
  | unknownOperation (key : String)
  /-- A request lacks an operand that its operation needs. -/
  | missingOperand (name : String)
  /-- A number that is to be stored in a byte does not fit there. -/
  | notAByte
  /-- There is no byte with this index. -/
  | byteIndex
  /-- There is no entry of the stack or of the keypad with this index. -/
  | entryIndex
  /-- As `entryIndex`, where the entry was to be written. -/
  | entryWriteIndex
  /-- The index does not even fit a machine word. -/
  | indexTooWide
  | noSuchRegister (register : Int)
  | noSuchKey (pin : Int)
  /-- The table of operations takes no more entries. -/
  | tableFrozen
  | duplicateOperation (key : String)
deriving DecidableEq, Repr

def Misuse.message : Misuse → String
  | .unknownOperation key => "Unknown operation key: " ++ key
  | .missingOperand name => name
  | .notAByte => "byte must be in range(0, 256)"
  | .byteIndex => "bytearray index out of range"
  | .entryIndex => "list index out of range"
  | .entryWriteIndex => "list assignment index out of range"
  | .indexTooWide => "cannot fit 'int' into an index-sized integer"
  | .noSuchRegister r => "Invalid register: V" ++ toString r
  | .noSuchKey pin => "Invalid input pin: " ++ toString pin
  | .tableFrozen => "Cannot register primitives: registry is frozen"
  | .duplicateOperation key => "Primitive already registered: " ++ key

/-- A failure of either kind. -/
inductive Error
  | fault (f : Fault)
  | misuse (m : Misuse)
deriving DecidableEq, Repr

def Error.message : Error → String
  | .fault f => f.message
  | .misuse m => m.message

end Chip8
