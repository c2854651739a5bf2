/-!
# A Mersenne twister

The generator MT19937 as a value: 624 words and the place of the next one. It is seeded from a list
of words, so that any natural number can be a seed: its words are taken from the lowest on.
-/

set_option autoImplicit false

namespace Chip8.Random

/-- The words of the generator, and how many of them have been given out since the last twist. -/
structure Twister where
  words : Array UInt32
  used : Nat
deriving DecidableEq

namespace Twister

/-- The number of words of the generator. -/
def size : Nat := 624

/-- A word mixed with itself shifted by 30, as seeding needs it. -/
def mix (w : UInt32) : UInt32 := w ^^^ (w >>> 30)

/-- Seeds from a single word. -/
def ofWord (seed : UInt32) : Array UInt32 :=
  (List.range (size - 1)).foldl
    (fun ws i => ws.push (1812433253 * mix (ws.getD i 0) + UInt32.ofNat (i + 1))) #[seed]

/-- Sets word `i` and, when it is the last, carries it over to the first place, from which the
next step reads. -/
def place (ws : Array UInt32) (i : Nat) (w : UInt32) : Array UInt32 :=
  let ws := ws.setIfInBounds i w
  if i = size - 1 then ws.setIfInBounds 0 w else ws

/-- The place after `i` in a round of seeding; place 0 is only ever a copy of the last. -/
def nextPlace (i : Nat) : Nat := if i = size - 1 then 1 else i + 1

/-- The first round of seeding, which stirs in the key. -/
def stirKey (key : Array UInt32) : Nat → Nat → Nat → Array UInt32 → Nat × Array UInt32
  | 0, i, _, ws => (i, ws)
  | n + 1, i, j, ws =>
    let w := (ws.getD i 0 ^^^ (mix (ws.getD (i - 1) 0) * 1664525)) + key.getD j 0 + UInt32.ofNat j
    stirKey key n (nextPlace i) (if j + 1 < key.size then j + 1 else 0) (place ws i w)

/-- The second round of seeding. -/
def stirPlaces : Nat → Nat → Array UInt32 → Array UInt32
  | 0, _, ws => ws
  | n + 1, i, ws =>
    let w := (ws.getD i 0 ^^^ (mix (ws.getD (i - 1) 0) * 1566083941)) - UInt32.ofNat i
    stirPlaces n (nextPlace i) (place ws i w)

/-- Seeds from a key of one or more words. -/
def ofKey (key : Array UInt32) : Twister :=
  let (i, ws) := stirKey key (max size key.size) 1 0 (ofWord 19650218)
  ⟨(stirPlaces (size - 1) i ws).setIfInBounds 0 0x80000000, size⟩

/-- The 32-bit words of a number, lowest first; zero has one. -/
def keyWords (n : Nat) : List UInt32 :=
  if n < 0x100000000 then [UInt32.ofNat n]
  else UInt32.ofNat n :: keyWords (n / 0x100000000)
termination_by n
decreasing_by omega

def ofSeed (seed : Nat) : Twister := ofKey (keyWords seed).toArray

/-- Word `i` of the next generation, of which the words before `i` have been made already. -/
def twistWord (ws : Array UInt32) (i : Nat) : Array UInt32 :=
  let y := (ws.getD i 0 &&& 0x80000000) ||| (ws.getD ((i + 1) % size) 0 &&& 0x7FFFFFFF)
  let w := ws.getD ((i + 397) % size) 0 ^^^ (y >>> 1)
  ws.setIfInBounds i (if y &&& 1 = 0 then w else w ^^^ 0x9908B0DF)

/-- The next generation of words. -/
def twist (ws : Array UInt32) : Array UInt32 := (List.range size).foldl twistWord ws

/-- Spreads the bits of a word before it is given out. -/
def temper (y : UInt32) : UInt32 :=
  let y := y ^^^ (y >>> 11)
  let y := y ^^^ ((y <<< 7) &&& 0x9D2C5680)
  let y := y ^^^ ((y <<< 15) &&& 0xEFC60000)
  y ^^^ (y >>> 18)

/-- The next word, and the generator after it. -/
def next (t : Twister) : UInt32 × Twister :=
  if t.used < size then (temper (t.words.getD t.used 0), { t with used := t.used + 1 })
  else
    let ws := twist t.words
    (temper (ws.getD 0 0), ⟨ws, 1⟩)

end Twister

end Chip8.Random
