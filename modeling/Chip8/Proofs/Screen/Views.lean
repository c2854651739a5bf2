import Chip8.Proofs.Screen.Render
import Chip8.Proofs.Text.Fields

/-!
# All views show the same picture

The pixels of a screen can be had as rows, as text and as an image, and

> **each of the three shows every pixel, and none shows anything else** (`views_agree`),

so that the pixels can be told from any of them. What a text and an image have to show is said here
by places in the text and in the image (`ShowsText`, `ShowsImage`): the pixel in a row and a column
stands in that line and that column of the text, and a point of an image belongs to the pixel that
is found by dividing its row and its column by the scale.

There is only one thing that can be wrong with pixels, their number, and all views report it.
Whatever images the host refuses, the ones it makes are of this picture, and it hides no mistake.
-/

set_option autoImplicit false

namespace Chip8

open Text

/-- A channel of the point in a row and a column of an image. -/
def Image.channel? (picture : Image) (i j channel : Nat) : Option UInt8 :=
  picture.rows[i]?.bind (·[3 * j + channel]?)

namespace Screen

/-- The character in a line and a column of a text. -/
def charAt? (text : String) (y x : Nat) : Option Char :=
  (text.toList.splitOn '\n')[y]?.bind (·[x]?)

/-! ## What views have to show -/

/-- The text shows the pixels, one character for those that are on and another for the rest. -/
structure ShowsText (on off : Char) (pixels : Array Bool) (text : String) : Prop where
  height : (text.toList.splitOn '\n').length = 32
  width : ∀ line ∈ text.toList.splitOn '\n', line.length = 64
  char : ∀ y < 32, ∀ x < 64, ∃ p, pixels[64 * y + x]? = some p ∧
    charAt? text y x = some (if p then on else off)

/-- The image shows the pixels, each as a square of points with all channels full or empty. -/
structure ShowsImage (scale : Nat) (pixels : Array Bool) (picture : Image) : Prop where
  height : picture.height = 32 * scale
  width : picture.width = 64 * scale
  rows_length : picture.rows.length = 32 * scale
  row_length : ∀ row ∈ picture.rows, row.length = 3 * (64 * scale)
  point : ∀ i < 32 * scale, ∀ j < 64 * scale, ∃ p,
    pixels[64 * (i / scale) + j / scale]? = some p ∧
      ∀ channel < 3, picture.channel? i j channel = some (if p then 255 else 0)

variable {pixels pixels' : Array Bool}

/-! ## What can be wrong -/

theorem rows_eq_error_iff {e : RenderError} :
    rows pixels = .error e ↔ pixels.size ≠ pixelCount ∧ e = .wrongCount pixels.size := by
  rw [rows]
  by_cases h : pixels.size = pixelCount
  · rw [if_pos h]
    exact ⟨by rintro ⟨⟩, fun hne => absurd h hne.1⟩
  · rw [if_neg h]
    refine ⟨by rintro ⟨⟩; exact ⟨h, rfl⟩, ?_⟩
    rintro ⟨-, rfl⟩
    rfl

/-- What is made of the rows fails as the rows do. -/
theorem map_eq_error_iff {ε α β : Type} {r : Except ε α} {f : α → β} {e : ε} :
    r.map f = .error e ↔ r = .error e := by
  cases r with
  | ok a => exact ⟨by rintro ⟨⟩, by rintro ⟨⟩⟩
  | error e' => exact ⟨by rintro ⟨⟩; rfl, by rintro ⟨⟩; rfl⟩

theorem magnifiable_of_scale {scale : Int} (hscale : 1 ≤ scale) :
    magnifiable pixels scale = rows pixels := by
  rw [magnifiable, if_neg (by omega)]

section Host

variable {ε : Type} {refusal? : Nat → Option ε}

/-- An image that the host does not refuse is the image. -/
theorem storedImage_of_room {scale : Nat} (hroom : refusal? scale = none) :
    storedImage refusal? pixels scale = (image pixels scale).mapError .render := by
  rw [storedImage, image, Int.toNat_natCast]
  cases magnifiable pixels scale with
  | error e => rfl
  | ok rs =>
    dsimp only
    rw [hroom]
    rfl

/-- What is wrong with pixels and scale is reported whatever the host would refuse. -/
theorem storedImage_eq_error_iff {scale : Int} {e : RenderError} :
    storedImage refusal? pixels scale = .error (.render e) ↔ image pixels scale = .error e := by
  rw [storedImage, image]
  cases magnifiable pixels scale with
  | error e' => exact ⟨by rintro ⟨⟩; rfl, by rintro ⟨⟩; rfl⟩
  | ok rs =>
    refine ⟨?_, by rintro ⟨⟩⟩
    dsimp only
    cases refusal? scale.toNat with
    | none => rintro ⟨⟩
    | some e' => rintro ⟨⟩

end Host

/-! ## Rows -/

/-- Rows of one length, cut off one after the other, are the list as far as it has been cut. -/
theorem flatten_rows {α : Type} (xs : List α) (width : Nat) : ∀ n : Nat,
    ((List.range n).map fun y => (xs.drop (y * width)).take width).flatten =
      xs.take (n * width)
  | 0 => by simp
  | n + 1 => by
    rw [List.range_succ, List.map_append, List.flatten_append, flatten_rows xs width n,
      List.map_singleton, List.flatten_singleton, Nat.succ_mul, List.take_add]

theorem exists_rows (h : pixels.size = pixelCount) :
    ∃ rs, rows pixels = .ok rs ∧ rs.length = 32 ∧ (∀ row ∈ rs, row.length = 64) ∧
      rs.flatten = pixels.toList := by
  refine ⟨_, rows_eq h, ?_, ?_, ?_⟩
  · rw [List.length_map, List.length_range, screenHeight]
  · refine List.forall_mem_map.mpr fun y _ => ?_
    rw [List.length_map, List.length_range, screenWidth]
  · have hrow : ∀ y, (pixels.extract (y * screenWidth) ((y + 1) * screenWidth)).toList =
        (pixels.toList.drop (y * screenWidth)).take screenWidth := by
      intro y
      rw [Array.toList_extract, List.extract_eq_take_drop, Nat.succ_mul, Nat.add_sub_cancel_left]
    have hall : pixels.toList.length = screenHeight * screenWidth := h
    have hrows := rows_eq h
    rw [rows, if_pos h] at hrows
    rw [← Except.ok.inj hrows]
    simp only [hrow]
    rw [flatten_rows, ← hall, List.take_length]

/-! ## Places -/

/-- The pixel in a column and a row has its place among the pixels. -/
theorem getElem?_eq_lit (h : pixels.size = pixelCount) {x y : Nat} (hx : x < 64) (hy : y < 32) :
    pixels[64 * y + x]? = some (lit pixels x y) := by
  have hplace : y * 64 + x < pixels.size := by
    rw [h]
    show y * 64 + x < 2048
    omega
  rw [Nat.mul_comm 64 y, lit, Array.getD_eq_getD_getElem?, screenWidth,
    Array.getElem?_eq_getElem hplace, Option.getD_some]

/-- A line of the screen has a character for each column. -/
theorem length_line (on off : Char) (pixels : Array Bool) (y : Nat) :
    (line on off pixels y).toList.length = 64 := by
  rw [line, String.toList_ofList, List.length_map, List.length_range, screenWidth]

theorem oneLine_line {on off : Char} (hon : on ≠ '\n') (hoff : off ≠ '\n')
    (pixels : Array Bool) (y : Nat) : OneLine (line on off pixels y) := by
  rw [OneLine, line, String.toList_ofList, List.mem_map]
  rintro ⟨x, -, heq⟩
  cases hlit : lit pixels x y with
  | true =>
    rw [hlit] at heq
    exact hon heq
  | false =>
    rw [hlit] at heq
    exact hoff heq

/-- **The text shows the pixels.** -/
theorem exists_showsText (h : pixels.size = pixelCount) {on off : Char} (hon : on ≠ '\n')
    (hoff : off ≠ '\n') : ∃ shown,
      text pixels (String.singleton on) (String.singleton off) = .ok shown ∧
        ShowsText on off pixels shown := by
  refine ⟨_, text_eq h on off, ?_⟩
  have hlines :
      ("\n".intercalate ((List.range screenHeight).map (line on off pixels))).toList.splitOn '\n' =
        (List.range 32).map fun y => (line on off pixels y).toList := by
    rw [splitOn_intercalate_lines (by simp [screenHeight]), List.map_map]
    · rfl
    · exact List.forall_mem_map.mpr fun y _ => oneLine_line hon hoff pixels y
  constructor
  · rw [hlines, List.length_map, List.length_range]
  · rw [hlines]
    exact List.forall_mem_map.mpr fun y _ => length_line on off pixels y
  · intro y hy x hx
    refine ⟨lit pixels x y, getElem?_eq_lit h hx hy, ?_⟩
    rw [charAt?, hlines, List.getElem?_map, List.getElem?_range hy]
    exact line_char on off pixels hx y

/-- **The image shows the pixels.** -/
theorem exists_showsImage (h : pixels.size = pixelCount) {scale : Nat} (hscale : 0 < scale) :
    ∃ picture, image pixels scale = .ok picture ∧ ShowsImage scale pixels picture := by
  obtain ⟨picture, himage, hpoint⟩ := image_point h hscale
  refine ⟨picture, himage, ?_⟩
  have hmagnified : picture = magnify scale
      ((List.range screenHeight).map fun y => (List.range screenWidth).map (lit pixels · y)) := by
    rw [image, magnifiable_of_scale (by omega), rows_eq h] at himage
    exact (Except.ok.inj himage).symm
  constructor
  · rw [hmagnified]
    rfl
  · rw [hmagnified]
    rfl
  · rw [hmagnified, magnify, length_stretch, List.length_map, List.length_map, List.length_range,
      Nat.mul_comm]
    rfl
  · rw [hmagnified]
    intro row hrow
    obtain ⟨wide, hwide, hmem⟩ := List.mem_flatMap.mp hrow
    rw [List.map_map] at hwide
    obtain ⟨y, -, rfl⟩ := List.mem_map.mp hwide
    rw [List.eq_of_mem_replicate hmem, Function.comp_apply, length_stretch, length_stretch,
      List.length_map, List.length_map, List.length_range, Nat.mul_comm scale]
    rfl
  · intro i hi j hj
    have hy : i / scale < 32 := Nat.div_lt_of_lt_mul (by rwa [Nat.mul_comm])
    have hx : j / scale < 64 := Nat.div_lt_of_lt_mul (by rwa [Nat.mul_comm])
    refine ⟨_, getElem?_eq_lit h hx hy, ?_⟩
    intro channel hchannel
    have hplace := hpoint (j / scale) hx (i / scale) hy (j % scale) (Nat.mod_lt j hscale)
      (i % scale) (Nat.mod_lt i hscale) channel hchannel
    rw [Nat.div_add_mod, Nat.div_add_mod] at hplace
    exact hplace

/-! ## What can be told from views -/

theorem ShowsText.char_iff {on off : Char} {shown : String} (h : ShowsText on off pixels shown)
    (hne : on ≠ off) {x y : Nat} (hx : x < 64) (hy : y < 32) (p : Bool) :
    charAt? shown y x = some (if p then on else off) ↔ pixels[64 * y + x]? = some p := by
  obtain ⟨p', hp', hchar⟩ := h.char y hy x hx
  rw [hchar, hp', Option.some_inj, Option.some_inj]
  cases p with
  | true => cases p' with
    | true => exact iff_of_true rfl rfl
    | false => exact iff_of_false (Ne.symm hne) (by decide)
  | false => cases p' with
    | true => exact iff_of_false hne (by decide)
    | false => exact iff_of_true rfl rfl

theorem ShowsImage.point_iff {scale : Nat} {picture : Image}
    (h : ShowsImage scale pixels picture) {i j channel : Nat} (hi : i < 32 * scale)
    (hj : j < 64 * scale) (hchannel : channel < 3) (p : Bool) :
    picture.channel? i j channel = some (if p then 255 else 0) ↔
      pixels[64 * (i / scale) + j / scale]? = some p := by
  obtain ⟨p', hp', hpoint⟩ := h.point i hi j hj
  rw [hpoint channel hchannel, hp', Option.some_inj, Option.some_inj]
  cases p with
  | true => cases p' with
    | true => decide
    | false => decide
  | false => cases p' with
    | true => decide
    | false => decide

/-- Pixels of which the same is told in all places are the same. -/
theorem eq_of_places (h : pixels.size = pixelCount) (h' : pixels'.size = pixelCount)
    (hplaces : ∀ y < 32, ∀ x < 64, ∀ p,
      pixels[64 * y + x]? = some p ↔ pixels'[64 * y + x]? = some p) : pixels = pixels' := by
  refine Array.ext_getElem? fun k => ?_
  by_cases hk : k < 2048
  · have hsame := hplaces (k / 64) (by omega) (k % 64) (by omega)
    rw [Nat.div_add_mod] at hsame
    exact Option.ext hsame
  · have hout : pixelCount ≤ k := Nat.le_of_not_lt hk
    rw [Array.getElem?_eq_none (by omega), Array.getElem?_eq_none (by omega)]

theorem eq_of_showsText {on off : Char} {shown : String} (hne : on ≠ off)
    (h : pixels.size = pixelCount) (h' : pixels'.size = pixelCount)
    (hshown : ShowsText on off pixels shown) (hshown' : ShowsText on off pixels' shown) :
    pixels = pixels' := by
  refine eq_of_places h h' fun y hy x hx p => ?_
  rw [← hshown.char_iff hne hx hy, ← hshown'.char_iff hne hx hy]

/-- The size of an image tells its scale, and its points tell the pixels. -/
theorem eq_of_showsImage {scale scale' : Nat} {picture : Image} (hscale : 0 < scale)
    (h : pixels.size = pixelCount) (h' : pixels'.size = pixelCount)
    (hshown : ShowsImage scale pixels picture) (hshown' : ShowsImage scale' pixels' picture) :
    pixels = pixels' := by
  obtain rfl : scale = scale' := by
    have hheight := hshown.height
    rw [hshown'.height] at hheight
    omega
  refine eq_of_places h h' fun y hy x hx p => ?_
  -- the first point of the square that belongs to the pixel
  have hi : y * scale < 32 * scale := Nat.mul_lt_mul_of_pos_right hy hscale
  have hj : x * scale < 64 * scale := Nat.mul_lt_mul_of_pos_right hx hscale
  have hchannel : 0 < 3 := by decide
  have hpoint := hshown.point_iff hi hj hchannel p
  have hpoint' := hshown'.point_iff hi hj hchannel p
  rw [Nat.mul_div_cancel y hscale, Nat.mul_div_cancel x hscale] at hpoint hpoint'
  rw [← hpoint, ← hpoint']

/-! ## All views -/

/-- Pixels can be shown unless there are too many or too few of them. -/
def NeedsAll {α : Type} (pixels : Array Bool) (view : Except RenderError α) : Prop :=
  ∀ e, view = .error e ↔ pixels.size ≠ pixelCount ∧ e = .wrongCount pixels.size

theorem size_of_needsAll {α : Type} {view : Except RenderError α} (h : NeedsAll pixels view)
    {a : α} (hview : view = .ok a) : pixels.size = pixelCount := by
  by_contra hsize
  rw [(h _).mpr ⟨hsize, rfl⟩] at hview
  cases hview

theorem text_needsAll (pixels : Array Bool) (on off : String) :
    NeedsAll pixels (text pixels on off) := by
  intro e
  rw [text, map_eq_error_iff, rows_eq_error_iff]

theorem image_needsAll (pixels : Array Bool) {scale : Nat} (hscale : 0 < scale) :
    NeedsAll pixels (image pixels scale) := by
  intro e
  rw [image, map_eq_error_iff, magnifiable_of_scale (by omega), rows_eq_error_iff]

theorem showsText_of_text {on off : Char} {shown : String} (hon : on ≠ '\n') (hoff : off ≠ '\n')
    (h : text pixels (String.singleton on) (String.singleton off) = .ok shown) :
    pixels.size = pixelCount ∧ ShowsText on off pixels shown := by
  have hsize := size_of_needsAll (text_needsAll pixels _ _) h
  obtain ⟨shown', htext, hshows⟩ := exists_showsText hsize hon hoff
  rw [h] at htext
  cases htext
  exact ⟨hsize, hshows⟩

theorem showsImage_of_image {scale : Nat} {picture : Image} (hscale : 0 < scale)
    (h : image pixels scale = .ok picture) :
    pixels.size = pixelCount ∧ ShowsImage scale pixels picture := by
  have hsize := size_of_needsAll (image_needsAll pixels hscale) h
  obtain ⟨picture', himage, hshows⟩ := exists_showsImage hsize hscale
  rw [h] at himage
  cases himage
  exact ⟨hsize, hshows⟩

/-- **All views show the same picture, and all of it.** Rows, texts and images can be made of all
pixels whose number is right, and of no others. The rows are the pixels in their order; a text and
an image show them each in its place. Pixels with the same text, or with the same image, are the
same, and a point of an image is bright where the text has the one character, and dark where it has
the other. An image that the host, whatever it is, does not refuse is that image. -/
theorem views_agree (pixels pixels' : Array Bool) :
    (NeedsAll pixels (rows pixels) ∧ (∀ on off, NeedsAll pixels (text pixels on off)) ∧
      ∀ scale : Nat, 1 ≤ scale → NeedsAll pixels (image pixels scale)) ∧
    (pixels.size = pixelCount →
      (∃ rs, rows pixels = .ok rs ∧ rs.length = 32 ∧ (∀ row ∈ rs, row.length = 64) ∧
        rs.flatten = pixels.toList) ∧
      (∀ on off : Char, on ≠ '\n' → off ≠ '\n' → ∃ shown,
        text pixels (String.singleton on) (String.singleton off) = .ok shown ∧
          ShowsText on off pixels shown) ∧
      ∀ scale : Nat, 1 ≤ scale → ∃ picture,
        image pixels scale = .ok picture ∧ ShowsImage scale pixels picture) ∧
    (∀ on off : Char, on ≠ off → on ≠ '\n' → off ≠ '\n' → ∀ shown,
      text pixels (String.singleton on) (String.singleton off) = .ok shown →
        (text pixels' (String.singleton on) (String.singleton off) = .ok shown →
          pixels = pixels') ∧
        ∀ (scale : Nat) (picture : Image), 1 ≤ scale → image pixels scale = .ok picture →
          ∀ i < 32 * scale, ∀ j < 64 * scale, ∀ channel < 3, ∀ p : Bool,
            charAt? shown (i / scale) (j / scale) = some (if p then on else off) ↔
              picture.channel? i j channel = some (if p then 255 else 0)) ∧
    (∀ (scale scale' : Nat) (picture : Image), 1 ≤ scale → 1 ≤ scale' →
      image pixels scale = .ok picture → image pixels' scale' = .ok picture → pixels = pixels') ∧
    ∀ (ε : Type) (refusal? : Nat → Option ε) (scale : Nat),
      (∀ e, storedImage refusal? pixels scale = .error (.render e) ↔
        image pixels scale = .error e) ∧
      (refusal? scale = none →
        storedImage refusal? pixels scale = (image pixels scale).mapError .render) := by
  refine ⟨⟨fun e => rows_eq_error_iff, text_needsAll pixels, fun scale => image_needsAll pixels⟩,
    fun h => ⟨exists_rows h, fun on off => exists_showsText h, fun scale => exists_showsImage h⟩,
    ?_, ?_, fun _ _ scale => ⟨fun e => storedImage_eq_error_iff, storedImage_of_room⟩⟩
  · intro on off hne hon hoff shown htext
    obtain ⟨h, hshows⟩ := showsText_of_text hon hoff htext
    constructor
    · intro htext'
      obtain ⟨h', hshows'⟩ := showsText_of_text hon hoff htext'
      exact eq_of_showsText hne h h' hshows hshows'
    · intro scale picture hscale himage i hi j hj channel hchannel p
      obtain ⟨-, hpicture⟩ := showsImage_of_image hscale himage
      have hy : i / scale < 32 := Nat.div_lt_of_lt_mul (by rwa [Nat.mul_comm])
      have hx : j / scale < 64 := Nat.div_lt_of_lt_mul (by rwa [Nat.mul_comm])
      rw [hshows.char_iff hne hx hy, hpicture.point_iff hi hj hchannel]
  · intro scale scale' picture hscale hscale' himage himage'
    obtain ⟨h, hshows⟩ := showsImage_of_image hscale himage
    obtain ⟨h', hshows'⟩ := showsImage_of_image hscale' himage'
    exact eq_of_showsImage hscale h h' hshows hshows'

/-- A screen with one pixel on, in row 1 and column 2. -/
def speck : Array Bool := (Array.replicate pixelCount false).setIfInBounds (64 * 1 + 2) true

/-- The speck is seen in the text and in an image, and not with row and column exchanged. Less than
a screen is refused. -/
theorem views_agree_speck : ∃ shown picture,
    text speck (String.singleton 'o') (String.singleton ' ') = .ok shown ∧
    image speck (3 : Nat) = .ok picture ∧
    charAt? shown 1 2 = some 'o' ∧ picture.channel? 5 8 2 = some 255 ∧
    charAt? shown 2 1 = some ' ' ∧ picture.channel? 8 5 2 = some 0 ∧
    (∀ pixels, text pixels (String.singleton 'o') (String.singleton ' ') = .ok shown →
      speck = pixels) ∧
    image #[true] (3 : Nat) = .error (.wrongCount 1) := by
  have hsize : speck.size = pixelCount := by
    rw [speck, Array.size_setIfInBounds, Array.size_replicate]
  have hon : speck[64 * 1 + 2]? = some true :=
    Array.getElem?_setIfInBounds_self_of_lt (by rw [Array.size_replicate]; decide)
  have hoff : speck[64 * 2 + 1]? = some false := by
    rw [speck, Array.getElem?_setIfInBounds_ne (by decide), Array.getElem?_replicate]
    exact if_pos (by decide)
  obtain ⟨-, hshown, htold, -⟩ := views_agree speck speck
  obtain ⟨-, htext, himage⟩ := hshown hsize
  obtain ⟨shown, hshown, hshows⟩ := htext 'o' ' ' (by decide) (by decide)
  obtain ⟨picture, hpicture, -⟩ := himage 3 (by decide)
  have hsame := (htold 'o' ' ' (by decide) (by decide) (by decide) shown hshown).2 3 picture
    (by decide) hpicture
  have hlit := (hshows.char_iff (by decide) (by decide) (by decide) true).mpr hon
  have hdark := (hshows.char_iff (by decide) (by decide) (by decide) false).mpr hoff
  refine ⟨shown, picture, hshown, hpicture, hlit, (hsame 5 (by decide) 8 (by decide) 2 (by decide)
    true).mp hlit, hdark, (hsame 8 (by decide) 5 (by decide) 2 (by decide) false).mp hdark, ?_, ?_⟩
  · intro pixels hpixels
    obtain ⟨-, -, htold, -⟩ := views_agree speck pixels
    exact (htold 'o' ' ' (by decide) (by decide) (by decide) shown hshown).1 hpixels
  · obtain ⟨⟨-, -, hneeds⟩, -⟩ := views_agree #[true] speck
    exact (hneeds 3 (by decide) _).mpr ⟨by decide, rfl⟩

end Screen

end Chip8
