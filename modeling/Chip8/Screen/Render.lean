import Chip8.Layout

/-!
# Showing the screen

The pixels of the screen as rows, as text and as an image. All three need exactly the pixels of a
screen; an image also needs a scale of at least 1, and looks at that first.

`image` is defined for every scale. The host may have no room for a large one, and which these are
is its own affair: `storedImage` is told what the host refuses, and asks it last.
-/

set_option autoImplicit false

namespace Chip8

namespace Screen

/-- Why a screen cannot be shown. -/
inductive RenderError
  | wrongCount (got : Nat)
  | scale
deriving DecidableEq, Repr

def RenderError.message : RenderError → String
  | .wrongCount got => "Expected " ++ toString pixelCount ++ " pixels, got " ++ toString got
  | .scale => "scale must be at least 1"

/-- The rows of the screen, from the top. -/
def rows (pixels : Array Bool) : Except RenderError (List (List Bool)) :=
  if pixels.size = pixelCount then
    .ok ((List.range screenHeight).map fun y =>
      (pixels.extract (y * screenWidth) ((y + 1) * screenWidth)).toList)
  else .error (.wrongCount pixels.size)

/-- One row as text. -/
def rowText (on off : String) (row : List Bool) : String :=
  String.join (row.map fun p => if p then on else off)

/-- The screen as lines of text, each pixel one of two given texts. -/
def text (pixels : Array Bool) (on off : String) : Except RenderError String :=
  (rows pixels).map fun rs => "\n".intercalate (rs.map (rowText on off))

/-- The value of every channel of a pixel in an image. -/
def brightness (p : Bool) : UInt8 := if p then 255 else 0

/-- Each element of a list a number of times. -/
def stretch {α : Type} (scale : Nat) (xs : List α) : List α := xs.flatMap (List.replicate scale)

end Screen

/-- An image of three equal channels a point, as the bytes of its rows, channels side by side. -/
structure Image where
  height : Nat
  width : Nat
  rows : List (List UInt8)
deriving DecidableEq, Repr

namespace Screen

/-- The rows of the screen, if they can be made an image of a scale. -/
def magnifiable (pixels : Array Bool) (scale : Int) : Except RenderError (List (List Bool)) :=
  if scale < 1 then .error .scale else rows pixels

/-- The image of rows of pixels in which every pixel is a square of `scale` points. -/
def magnify (scale : Nat) (rs : List (List Bool)) : Image where
  height := screenHeight * scale
  width := screenWidth * scale
  rows := stretch scale (rs.map fun row => stretch 3 (stretch scale (row.map brightness)))

/-- The image in which every pixel of the screen is a square of `scale` points. -/
def image (pixels : Array Bool) (scale : Int) : Except RenderError Image :=
  (magnifiable pixels scale).map (magnify scale.toNat)

/-- Why an image is not made: the pixels or the scale are wrong, or the host has refused. -/
inductive ImageError (ε : Type)
  | render (e : RenderError)
  | storage (e : ε)
deriving DecidableEq, Repr

/-- The image of a scale, if the host does not refuse one of this scale. -/
def storedImage {ε : Type} (refusal? : Nat → Option ε) (pixels : Array Bool) (scale : Int) :
    Except (ImageError ε) Image :=
  match magnifiable pixels scale with
  | .error e => .error (.render e)
  | .ok rs =>
    match refusal? scale.toNat with
    | some e => .error (.storage e)
    | none => .ok (magnify scale.toNat rs)

end Screen

end Chip8
