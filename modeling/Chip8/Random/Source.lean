import Chip8.Random.Twister

/-!
# Sources of random bytes

The one instruction that needs chance asks a source for a byte. A source is a value that changes
with every byte it gives, so that a run of the machine is a function of where its source stands. A
script repeats given bytes, which is what tests and replays use; a generator is seeded by a number.
-/

set_option autoImplicit false

namespace Chip8.Random

/-- Where random bytes come from. -/
inductive Source
  /-- The given bytes over and over, and how many have been drawn; an empty script gives zeros. -/
  | script (bytes : Array UInt8) (drawn : Nat)
  | twister (generator : Twister)
deriving DecidableEq

namespace Source

/-- The script of given bytes, from its start. -/
def ofBytes (bytes : Array UInt8) : Source := .script bytes 0

/-- A generator; seeds of opposite sign give the same. -/
def ofSeed (seed : Int) : Source := .twister (.ofSeed seed.natAbs)

/-- The next byte, and the source after it. A generator gives the highest bits of its words. -/
def next : Source → UInt8 × Source
  | .script bytes drawn => (bytes.getD (drawn % bytes.size) 0, .script bytes (drawn + 1))
  | .twister t =>
    let (w, t) := t.next
    ((w >>> 24).toUInt8, .twister t)

instance : Inhabited Source := ⟨.ofBytes #[]⟩

end Source

end Chip8.Random
