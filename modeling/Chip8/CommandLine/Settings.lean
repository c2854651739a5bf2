import Chip8.CommandLine.Grammar
import Chip8.Keypad
import Chip8.Machine.Config
import Chip8.Program.Words
import Chip8.Text.Numeral

/-!
# The options of the program

What a user can ask for, and the settings that come of it. Of an option given twice the later one
counts. A program must be given, as a file or in the command line itself; an empty name is none.

An option can be given without its value. For the program and the keys that is as if they were not
given. The number of cycles, the seed and the policy are then missing, and the program cannot run.
-/

set_option autoImplicit false

namespace Chip8.CommandLine

open Text

/-- The options without a value. -/
inductive Flag
  | help
  | trace
  | quiet
  | debug
deriving DecidableEq, Repr

/-- The options with a value. -/
inductive ValueOption
  | rom
  | inline
  | cycles
  | keys
  | seed
  | onInvalid
deriving DecidableEq, Repr

/-- The options in the order in which they are listed. -/
def optionSpecs : List (OptionSpec Flag ValueOption) := [
  ⟨.flag .help, ["-h", "--help"]⟩,
  ⟨.value .rom, ["--rom", "-r"]⟩,
  ⟨.value .inline, ["--inline", "-i"]⟩,
  ⟨.value .cycles, ["--cycles", "-c"]⟩,
  ⟨.value .keys, ["--keys", "-k"]⟩,
  ⟨.value .seed, ["--seed"]⟩,
  ⟨.value .onInvalid, ["--on-invalid"]⟩,
  ⟨.flag .trace, ["--trace", "-t"]⟩,
  ⟨.flag .quiet, ["--quiet", "-q"]⟩,
  ⟨.flag .debug, ["--debug"]⟩]

structure Settings where
  rom : Argument := []
  inlineText : Argument := []
  /-- The number of cycles, unless it is missing. -/
  cycles : Option Int := some 1000
  /-- The numbers of the keys held down. -/
  keys : List Nat := []
  /-- The source of random bytes, unless the seed is missing. -/
  random : Option Random.Source := some (.ofBytes #[])
  /-- The policy, unless it is missing. -/
  onInvalid : Option InvalidPolicy := some .refuse
  trace : Bool := false
  quiet : Bool := false
  debug : Bool := false
deriving DecidableEq

/-- Why the program does not do what a command line asks. -/
inductive Rejection
  | arguments (r : Refusal)
  | noProgram
  /-- The words in the command line are no program. -/
  | badProgram (e : Program.SourceError)
deriving DecidableEq, Repr

def Rejection.message : Rejection → String
  | .arguments r => r.message
  | .noProgram => "Either --rom or --inline is required"
  | .badProgram e => "Invalid inline program: " ++ e.message

/-- An integer given as the value of an option. -/
def integerValue (text : Argument) : Except OptionProblem Int :=
  match Numeral.decimal? text with
  | some n => .ok n
  | none => .error (.invalidInteger text)

/-- The keys given as the value of an option. -/
def keysValue (text : Argument) : Except OptionProblem (List Nat) :=
  (Keypad.ofText text).mapError fun name => .badValue (Keypad.unknownKeyMessage name)

/-- The policy given as the value of an option. -/
def policyValue (text : Argument) : Except OptionProblem InvalidPolicy :=
  match InvalidPolicy.ofName? (String.ofList text) with
  | some policy => .ok policy
  | none => .error (.invalidChoice text [InvalidPolicy.refuse.name, InvalidPolicy.skip.name])

/-- Takes up a flag. -/
def Settings.takeFlag (s : Settings) : Flag → Except Refusal Settings
  | .help => .error .helpRequested
  | .trace => .ok { s with trace := true }
  | .quiet => .ok { s with quiet := true }
  | .debug => .ok { s with debug := true }

/-- Takes up an option with its value. -/
def Settings.takeValue (s : Settings) (v : ValueOption) :
    Option Argument → Except OptionProblem Settings
  | some text =>
    match v with
    | .rom => .ok { s with rom := text }
    | .inline => .ok { s with inlineText := text }
    | .cycles => (integerValue text).map fun n => { s with cycles := some n }
    | .keys => (keysValue text).map fun pins => { s with keys := pins }
    | .seed => (integerValue text).map fun n => { s with random := some (.ofSeed n) }
    | .onInvalid => (policyValue text).map fun policy => { s with onInvalid := some policy }
  | none =>
    match v with
    | .rom => .ok { s with rom := [] }
    | .inline => .ok { s with inlineText := [] }
    | .cycles => .ok { s with cycles := none }
    | .keys => .ok { s with keys := [] }
    | .seed => .ok { s with random := none }
    | .onInvalid => .ok { s with onInvalid := none }

/-- The settings that the options of a command line ask for, given where random bytes come from if
no seed is. -/
def Settings.ofOptions (args : List Argument) (unseeded : Random.Source) :
    Except Refusal Settings :=
  read optionSpecs ⟨Settings.takeFlag, Settings.takeValue⟩ { random := some unseeded } args

/-- The settings that a command line asks for, if there is a program among them. -/
def Settings.ofArguments (args : List Argument) (unseeded : Random.Source := .ofBytes #[]) :
    Except Rejection Settings :=
  match Settings.ofOptions args unseeded with
  | .error r => .error (.arguments r)
  | .ok s => if s.rom.isEmpty && s.inlineText.isEmpty then .error .noProgram else .ok s

end Chip8.CommandLine
