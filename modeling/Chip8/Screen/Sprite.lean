import Chip8.Layout

/-!
# Sprites

A sprite is a column of bytes, each a row of eight pixels, the highest bit on the left. Drawing it
flips the screen at every set bit; the picture wraps round at all four edges. `cells` names the
places to flip, and `Drawing.flipAll` flips them and takes note of whether anything was flipped and
whether anything that was on has gone off.
-/

set_option autoImplicit false

namespace Chip8

namespace Sprite

/-- The bit of a sprite row at column `c`, counted from the left. -/
def bit (row : UInt8) (c : Nat) : Bool := row.toNat.testBit (7 - c)

/-- The place of a point on the screen, in the order of its rows; the point may lie off screen. -/
def place (x y : Nat) : Nat := x % screenWidth + y % screenHeight * screenWidth

/-- The places that one row of a sprite covers with its set bits, its left end at `x`. -/
def rowCells (row : UInt8) (x y : Nat) : List Nat :=
  ((List.range 8).filter (bit row)).map fun c => place (x + c) y

/-- The places that a sprite covers with its set bits, its upper left corner at `x`, `y`. -/
def cells (rows : List UInt8) (x y : Nat) : List Nat :=
  rows.zipIdx.flatMap fun (row, r) => rowCells row x (y + r)

end Sprite

/-- A screen that is being drawn on. -/
structure Drawing where
  pixels : Array Bool
  /-- A pixel has been turned off. -/
  collision : Bool
  /-- A pixel has been flipped. -/
  changed : Bool

namespace Drawing

/-- A screen on which nothing has been drawn yet. -/
def start (pixels : Array Bool) : Drawing := ⟨pixels, false, false⟩

/-- Flips one pixel. -/
def flip (d : Drawing) (p : Nat) : Drawing where
  collision := d.collision || d.pixels.getD p false
  pixels := d.pixels.modify p not
  changed := true

def flipAll (d : Drawing) (ps : List Nat) : Drawing := ps.foldl flip d

end Drawing

end Chip8
