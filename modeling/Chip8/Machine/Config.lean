import Chip8.Machine
import Chip8.Text.Quoted

/-!
# Switching a machine on

The settings of a new machine are looked at once, when it is made. They are numbers and words that a
user has written, so each can be wrong; the first that is wrong, in the order below, is reported.
-/

set_option autoImplicit false

namespace Chip8

def InvalidPolicy.name : InvalidPolicy → String
  | .refuse => "raise"
  | .skip => "skip"

def InvalidPolicy.ofName? (s : String) : Option InvalidPolicy :=
  if s = "raise" then some .refuse else if s = "skip" then some .skip else none

/-- What can be wrong with the settings. -/
inductive ConfigError
  /-- A tick takes a cycle at least. -/
  | timerResolution
  /-- There is no such policy; the text is what was asked for. -/
  | unknownPolicy (name : String)
  /-- A trace cannot have less than no entries. -/
  | traceLimit
  /-- The limit of the trace does not even fit a machine word. -/
  | traceLimitTooWide
deriving DecidableEq, Repr

/-- The report on a policy that there is not, given how it is shown. -/
def unknownPolicyMessage (shown : String) : String :=
  "on_invalid must be one of ('raise', 'skip'), got " ++ shown

def ConfigError.message : ConfigError → String
  | .timerResolution => "timer_resolution must be at least 1"
  | .unknownPolicy name => unknownPolicyMessage (Text.quote name)
  | .traceLimit => "maxlen must be non-negative"
  | .traceLimitTooWide => "Python int too large to convert to C ssize_t"

def defaultTimerResolution : Nat := 10

def defaultTraceLimit : Nat := 10000

/-- The settings of a new machine, as a user gives them. -/
structure Config where
  timerResolution : Int := defaultTimerResolution
  onInvalid : String := InvalidPolicy.refuse.name
  tracing : Bool := false
  /-- The most trace entries that are kept; no limit if there is none. -/
  traceLimit : Option Int := some (defaultTraceLimit : Int)
  random : Random.Source := .ofBytes #[]

/-- A new machine, before any program is loaded. -/
def Machine.new (timerResolution : Int) (onInvalid : InvalidPolicy) (tracing : Bool)
    (traceLimit : Option Nat) (random : Random.Source) : Machine where
  state := .initial random
  timerResolution := timerResolution
  onInvalid := onInvalid
  tracing := tracing
  trace := .empty traceLimit
  skips := #[]

/-- A new machine with the settings that a user gives, or the first thing wrong with them. -/
def Machine.ofConfig (c : Config) : Except ConfigError Machine :=
  if c.timerResolution < 1 then .error .timerResolution
  else
    match InvalidPolicy.ofName? c.onInvalid with
    | none => .error (.unknownPolicy c.onInvalid)
    | some policy =>
      if c.traceLimit.any (!indexFits ·) then .error .traceLimitTooWide
      else if c.traceLimit.any (· < 0) then .error .traceLimit
      else .ok (.new c.timerResolution policy c.tracing (c.traceLimit.map Int.toNat) c.random)

end Chip8
