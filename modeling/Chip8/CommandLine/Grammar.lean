import Chip8.Text.Quoted
import Chip8.Text.Digit

/-!
# The grammar of command lines

How a list of arguments is read as options and their values, for any set of options.

An option has long names of two dashes and may have a short one of one dash and one letter. A long
name may be cut short as long as only one option can be meant. A value is the next argument, or
follows a name after `=`, or follows a short name at once. Short names may share a dash, all but the
last of them flags; of these names only the first may be followed by `=`, which is then passed over.
After `--` nothing is an option any more, and joined to a name, `--` stands for no value.

Arguments are first sorted into options and others, all of them, and only then read from left to
right. This decides which of two mistakes is reported: a name that can mean two options comes before
everything else, and arguments that belong to no option come last.
-/

set_option autoImplicit false

namespace Chip8.CommandLine

open Text

/-- An argument as it was typed. -/
abbrev Argument := List Char

/-- What an option is for: a flag `φ` is there or not, an option `ν` takes a value. -/
inductive Role (φ ν : Type)
  | flag (f : φ)
  | value (v : ν)

/-- An option, with its names in the order in which they are listed. -/
structure OptionSpec (φ ν : Type) where
  role : Role φ ν
  names : List String

/-- What is wrong with the use of an option. -/
inductive OptionProblem
  | expectedValue
  /-- A value was given to an option that takes none. -/
  | ignoredValue (text : Argument)
  | invalidInteger (text : Argument)
  | invalidChoice (text : Argument) (choices : List String)
  /-- The value names no key of the keypad; the message says which part of it. -/
  | badValue (message : String)
deriving DecidableEq, Repr

/-- Why a command line is not accepted. -/
inductive Refusal
  | ambiguous (text : Argument) (names : List String)
  /-- An option, by all its names, was used wrongly. -/
  | misused (names : List String) (problem : OptionProblem)
  | unrecognized (texts : List Argument)
  /-- The user asked how the program is used. -/
  | helpRequested
deriving DecidableEq, Repr

def quoted (text : Argument) : String := String.ofList (quoteChars text)

def OptionProblem.message : OptionProblem → String
  | .expectedValue => "expected one argument"
  | .ignoredValue text => "ignored explicit argument " ++ quoted text
  | .invalidInteger text => "invalid int value: " ++ quoted text
  | .invalidChoice text choices =>
    "invalid choice: " ++ quoted text ++ " (choose from " ++
      ", ".intercalate (choices.map quote) ++ ")"
  | .badValue message => message

def Refusal.message : Refusal → String
  | .ambiguous text names =>
    "ambiguous option: " ++ String.ofList text ++ " could match " ++ ", ".intercalate names
  | .misused names problem => "argument " ++ "/".intercalate names ++ ": " ++ problem.message
  | .unrecognized texts =>
    "unrecognized arguments: " ++ " ".intercalate (texts.map String.ofList)
  | .helpRequested => "help requested"

/-! ## Sorting arguments -/

/-- An argument that names an option, under one of its names, and the text joined to the name. -/
structure OptionUse (φ ν : Type) where
  spec : OptionSpec φ ν
  name : List Char
  joined : Option (List Char)

/-- An argument, sorted. -/
inductive Sorted (φ ν : Type)
  | plain (text : Argument)
  /-- The two dashes after which nothing is an option. -/
  | dashes
  | option (use : OptionUse φ ν)
  /-- It looks like an option, but there is none of that name. -/
  | unknown (text : Argument)

/-- The text before the first `=`, and the text after it if there is one. -/
def splitMarked : List Char → List Char × Option (List Char)
  | [] => ([], none)
  | c :: rest =>
    if c = '=' then ([], some rest)
    else
      let (name, value) := splitMarked rest
      (c :: name, value)

/-- The option with a name. -/
def findName? {φ ν : Type} (specs : List (OptionSpec φ ν)) (name : List Char) :
    Option (OptionSpec φ ν) :=
  specs.find? fun s => s.names.any (·.toList == name)

/-- Every name of every option, with its option. -/
def allNames {φ ν : Type} (specs : List (OptionSpec φ ν)) : List (OptionSpec φ ν × String) :=
  specs.flatMap fun s => s.names.map fun n => (s, n)

/-- The options that an argument which is no full name can mean: of two dashes, those with a name
that begins with it, up to an `=`; of one dash, the one named by its letter. -/
def candidates {φ ν : Type} (specs : List (OptionSpec φ ν)) (arg : Argument) :
    List (OptionUse φ ν) :=
  match arg with
  | '-' :: '-' :: _ =>
    let (name, value) := splitMarked arg
    ((allNames specs).filter fun (_, n) => name.isPrefixOf n.toList).map fun (s, n) =>
      ⟨s, n.toList, value⟩
  | '-' :: c :: value =>
    (findName? specs ['-', c]).toList.map fun s => ⟨s, ['-', c], some value⟩
  | _ => []

def isDigit (c : Char) : Bool := (digitValue? c).isSome

/-- A text without the line end that it may have. -/
def dropLineEnd (cs : List Char) : List Char :=
  if cs.getLast? = some '\n' then cs.dropLast else cs

/-- A minus sign and a number, whole or with a point and digits behind it. Such an argument is a
value, not an option. -/
def isNegativeNumber : Argument → Bool
  | '-' :: body =>
    let digits := body.takeWhile isDigit
    match body.dropWhile isDigit with
    | [] => !digits.isEmpty
    | '.' :: rest =>
      let places := dropLineEnd rest
      !places.isEmpty && places.all isDigit
    | rest => rest = ['\n'] && !digits.isEmpty
  | _ => false

/-- What an argument before the two dashes is. -/
def sortOne {φ ν : Type} (specs : List (OptionSpec φ ν)) (arg : Argument) :
    Except Refusal (Sorted φ ν) :=
  if arg.head? ≠ some '-' then .ok (.plain arg)
  else
    match findName? specs arg with
    | some s => .ok (.option ⟨s, arg, none⟩)
    | none =>
      if arg = ['-'] then .ok (.plain arg)
      else
        let (name, value) := splitMarked arg
        match value, findName? specs name with
        | some v, some s => .ok (.option ⟨s, name, some v⟩)
        | _, _ =>
          match candidates specs arg with
          | [use] => .ok (.option use)
          | [] =>
            if isNegativeNumber arg || arg.contains ' ' then .ok (.plain arg)
            else .ok (.unknown arg)
          | uses => .error (.ambiguous arg (uses.map fun u => String.ofList u.name))

def sortAll {φ ν : Type} (specs : List (OptionSpec φ ν)) :
    List Argument → Except Refusal (List (Sorted φ ν))
  | [] => .ok []
  | arg :: rest =>
    if arg = ['-', '-'] then .ok (.dashes :: rest.map .plain)
    else do
      let first ← sortOne specs arg
      let others ← sortAll specs rest
      return first :: others

/-! ## Reading from left to right -/

/-- How an argument that names options ends, the flags before its end apart. -/
inductive Ending (ν : Type)
  | done
  /-- An option and its value. -/
  | value (v : ν) (names : List String) (text : Argument)
  /-- An option whose value must come in the next argument. -/
  | wants (v : ν) (names : List String)

/-- A name of one dash. -/
def isShort (name : List Char) : Bool := name[1]? ≠ some '-'

/-- The flags that an argument names, and how it ends, when the short name of an option has just
been read and `text` follows it. A flag is followed by the letter of another option; a letter that
names none is blamed on the flag before it. -/
def unfoldShort {φ ν : Type} (specs : List (OptionSpec φ ν)) (spec : OptionSpec φ ν)
    (text : List Char) : Except Refusal (List φ × Ending ν) :=
  match spec.role, text with
  | .value v, [] => .ok ([], .wants v spec.names)
  | .value v, _ :: _ => .ok ([], .value v spec.names text)
  | .flag f, [] => .ok ([f], .done)
  | .flag f, c :: rest =>
    match findName? specs ['-', c] with
    | some next => do
      let (flags, ending) ← unfoldShort specs next rest
      return (f :: flags, ending)
    | none => .error (.misused spec.names (.ignoredValue text))

/-- The flags that an argument names, and how it ends. -/
def unfoldUse {φ ν : Type} (specs : List (OptionSpec φ ν)) (use : OptionUse φ ν) :
    Except Refusal (List φ × Ending ν) :=
  match use.spec.role, use.joined with
  | _, none => unfoldShort specs use.spec []
  | .value v, some text => .ok ([], .value v use.spec.names text)
  | .flag _, some text =>
    if text = [] || !isShort use.name then
      .error (.misused use.spec.names (.ignoredValue text))
    else unfoldShort specs use.spec text

/-- How settings take up options. An option that takes a value can be given none. -/
structure Uptake (φ ν σ : Type) where
  flag : σ → φ → Except Refusal σ
  value : σ → ν → Option Argument → Except OptionProblem σ

/-- The value that a text stands for: two dashes are no value. -/
def valueOf (text : Argument) : Option Argument := if text = ['-', '-'] then none else some text

/-- Takes up an option with a value; a problem is reported under the names of the option. -/
def Uptake.valueNamed {φ ν σ : Type} (take : Uptake φ ν σ) (s : σ) (v : ν) (names : List String)
    (text : Argument) : Except Refusal σ :=
  (take.value s v (valueOf text)).mapError (.misused names)

/-- Takes up sorted arguments; the answer is the settings and the arguments left over. -/
def takeAll {φ ν σ : Type} (specs : List (OptionSpec φ ν)) (take : Uptake φ ν σ) :
    σ → List (Sorted φ ν) → Except Refusal (σ × List Argument)
  | s, [] => .ok (s, [])
  | s, .plain text :: rest => do
    let (s, extra) ← takeAll specs take s rest
    return (s, text :: extra)
  | s, .dashes :: rest => do
    let (s, extra) ← takeAll specs take s rest
    return (s, ['-', '-'] :: extra)
  | s, .unknown text :: rest => do
    let (s, extra) ← takeAll specs take s rest
    return (s, text :: extra)
  | s, .option use :: rest => do
    let (flags, ending) ← unfoldUse specs use
    match ending with
    | .done => do
      let s ← flags.foldlM take.flag s
      takeAll specs take s rest
    | .value v names text => do
      let s ← flags.foldlM take.flag s
      let s ← take.valueNamed s v names text
      takeAll specs take s rest
    | .wants v names =>
      match rest with
      | .plain text :: rest => do
        let s ← flags.foldlM take.flag s
        let s ← take.valueNamed s v names text
        takeAll specs take s rest
      | _ => .error (.misused names .expectedValue)

/-- Reads a command line. -/
def read {φ ν σ : Type} (specs : List (OptionSpec φ ν)) (take : Uptake φ ν σ) (start : σ)
    (args : List Argument) : Except Refusal σ := do
  let sorted ← sortAll specs args
  let (s, extra) ← takeAll specs take start sorted
  if extra.isEmpty then return s else throw (.unrecognized extra)

end Chip8.CommandLine
