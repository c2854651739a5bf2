import Chip8.Text.Numeral
import Chip8.Text.Quoted

/-!
# Programs as lists of words

A program image is a list of sixteen-bit words, high byte first. Words come as integers, and a word
as a numeral in base 16; both can fail, and the first word that does is the one reported.
-/

set_option autoImplicit false

namespace Chip8.Program

open Text

/-- Why a text is no program. -/
inductive SourceError
  /-- A word is written in a way that is no number. -/
  | badNumeral (word : List Char)
  | wordOutOfRange (word : Int)
deriving DecidableEq, Repr

/-- How much of a word that is no number is shown, its quotes included. -/
def shownLength : Nat := 200

def SourceError.message : SourceError → String
  | .badNumeral word =>
    "invalid literal for int() with base 16: " ++ String.ofList ((quoteChars word).take shownLength)
  | .wordOutOfRange word => "Instruction word out of range: " ++ Hex.marked word

/-- The two bytes of a word. -/
def wordBytes (w : Int) : Except SourceError (List UInt8) :=
  if 0 ≤ w ∧ w ≤ 0xFFFF then .ok [UInt8.ofNat (w / 256).toNat, UInt8.ofNat (w % 256).toNat]
  else .error (.wordOutOfRange w)

/-- The program image of a list of words. -/
def ofWords (ws : List Int) : Except SourceError (List UInt8) :=
  (ws.mapM wordBytes).map List.flatten

/-- A word written in base 16. -/
def readWord (cs : List Char) : Except SourceError Int :=
  match Numeral.hex? cs with
  | some w => .ok w
  | none => .error (.badNumeral cs)

end Chip8.Program
