import Chip8.CommandLine.Settings
import Chip8.Text.Blank

/-!
# The help text

What is printed when the user asks how the program is used: the options in short, what the program
is, the options with what each is for, and examples. It is laid out for a terminal of 80 columns,
which is what a terminal is taken to have that does not say.

Long paragraphs are set on lines by `fill`, which puts as many words on a line as there is room for.
-/

set_option autoImplicit false

namespace Chip8.CommandLine

open Text

/-! ## What is said of the options -/

def Flag.purpose : Flag → String
  | .help => "show this help message and exit"
  | .trace => "Print full execution trace"
  | .quiet => "Minimal output (screen only)"
  | .debug => "Enable verbose debug logging"

def ValueOption.purpose : ValueOption → String
  | .rom => "Path to a CHIP-8 program image"
  | .inline => "Inline program as hex instruction words (e.g. \"6005 1200\")"
  | .cycles => "Number of cycles to execute. Default: 1000"
  | .keys => "Comma separated keys held down during the run (1234/qwer/asdf/zxcv)"
  | .seed => "Seed for the RND instruction"
  | .onInvalid => "Stop on (raise) or step over (skip) invalid opcodes. Default: raise"

/-- What stands for the value of an option: all choices if there are only some, else a name. -/
def ValueOption.placeholder : ValueOption → String
  | .rom => "ROM"
  | .inline => "INLINE"
  | .cycles => "CYCLES"
  | .keys => "KEYS"
  | .seed => "SEED"
  | .onInvalid =>
    "\x7b" ++ ",".intercalate [InvalidPolicy.refuse.name, InvalidPolicy.skip.name] ++ "\x7d"

namespace Help

def purpose : Role Flag ValueOption → String
  | .flag f => f.purpose
  | .value v => v.purpose

/-- How an option is used under one of its names. -/
def invocation (name : String) : Role Flag ValueOption → String
  | .flag _ => name
  | .value v => name ++ " " ++ v.placeholder

/-! ## Setting words on lines -/

def words (text : String) : List String := (fields (· == ' ') text.toList).map String.ofList

/-- A line of words, with a blank between two of them. -/
def line (ws : List String) : String := " ".intercalate ws

/-- Puts words behind those of a line while there is room, and the others on lines below it. -/
def fillAfter (width : Nat) (begun : List String) : List String → List (List String)
  | [] => [begun]
  | w :: ws =>
    if (line (begun ++ [w])).length ≤ width then fillAfter width (begun ++ [w]) ws
    else begun :: fillAfter width [w] ws

/-- Puts words on lines of `width` characters. A word for which a line is too short has a line of
its own, and stands out. -/
def fill (width : Nat) : List String → List (List String)
  | [] => []
  | w :: ws => fillAfter width [w] ws

/-! ## Laying out -/

/-- The characters of a line; the last two columns stay free. -/
def textWidth : Nat := 78

/-- The column where the purposes of the options begin. -/
def purposeColumn : Nat := 24

def blanks (n : Nat) : String := "".pushn ' ' n

/-- Lines one below the other, the first of them behind a text. -/
def hang (start : String) : List String → List String
  | [] => [start]
  | l :: ls => (start ++ l) :: ls.map (blanks start.length ++ ·)

def usageStart : String := "usage: main.py "

/-- The options in short, each under its first name. -/
def usageParts : List String :=
  optionSpecs.flatMap fun s =>
    (s.names.take 1).map fun name => "[" ++ invocation name s.role ++ "]"

def usageLines : List String :=
  hang usageStart ((fill (textWidth - usageStart.length) usageParts).map line)

/-- An option under all its names. -/
def optionStart (s : OptionSpec Flag ValueOption) : String :=
  "  " ++ ", ".intercalate (s.names.map (invocation · s.role))

/-- An option with its purpose, which stands beside the names, or below if they are long. -/
def optionLines (s : OptionSpec Flag ValueOption) : List String :=
  let start := optionStart s
  let paragraph := (fill (textWidth - purposeColumn) (words (purpose s.role))).map line
  if start.length + 2 ≤ purposeColumn then
    hang (start ++ blanks (purposeColumn - start.length)) paragraph
  else start :: paragraph.map (blanks purposeColumn ++ ·)

def exampleLines : List String := [
  "Examples:",
  "    # Run a ROM for 500 cycles",
  "    python main.py --rom roms/IBM_Logo.ch8 --cycles 500",
  "",
  "    # Draw the font glyph for 0 and show the trace",
  "    python main.py --inline \"A050 6000 6100 D015 1208\" --cycles 5 --trace",
  "",
  "    # Hold keys 1 and Q (pins 0x1 and 0x4) for the whole run",
  "    python main.py --rom game.ch8 --keys 1,q",
  "        "]

def lines : List String :=
  usageLines ++
    ["", "chip8-vm: CHIP-8 virtual machine", "", "options:"] ++ optionSpecs.flatMap optionLines ++
    [""] ++ exampleLines

end Help

end Chip8.CommandLine
