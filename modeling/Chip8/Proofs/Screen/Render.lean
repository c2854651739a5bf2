import Chip8.Screen.Render

/-!
# What the screen looks like

A pixel is shown as one character of a text and as a square of points of an image. Where in the text
and in the image it is found is said here once (`text_eq`, `image_point`), for every screen that has
as many pixels as a screen has. So whoever has the text and the image of one screen can tell the
same pixels from either.
-/

set_option autoImplicit false

namespace Chip8.Screen

/-- Whether the pixel in a column and a row is on. -/
def lit (pixels : Array Bool) (x y : Nat) : Bool := pixels.getD (y * screenWidth + x) false

/-- A row of the screen as a line of text. -/
def line (on off : Char) (pixels : Array Bool) (y : Nat) : String :=
  String.ofList ((List.range screenWidth).map fun x => if lit pixels x y then on else off)

variable {pixels : Array Bool}

theorem rows_eq (h : pixels.size = pixelCount) : rows pixels =
    .ok ((List.range screenHeight).map fun y => (List.range screenWidth).map (lit pixels · y)) := by
  rw [rows, if_pos h]
  congr 1
  refine List.map_congr_left fun y hy => ?_
  have hrow : (y + 1) * screenWidth ≤ pixels.size := by
    rw [h]
    exact Nat.mul_le_mul_right screenWidth (Nat.succ_le_of_lt (List.mem_range.mp hy))
  rw [Nat.add_mul, Nat.one_mul] at hrow ⊢
  have hlength : (pixels.extract (y * screenWidth) (y * screenWidth + screenWidth)).size =
      screenWidth := by
    rw [Array.size_extract, Nat.min_eq_left hrow, Nat.add_sub_cancel_left]
  refine List.ext_getElem (by rw [Array.length_toList, hlength, List.length_map,
    List.length_range]) ?_
  intro x hx _
  rw [Array.length_toList, hlength] at hx
  have hplace : y * screenWidth + x < pixels.size := by omega
  simp [lit, Array.getD, hplace]

/-! ## Text -/

theorem rowText_eq (on off : Char) (row : List Bool) :
    rowText (String.singleton on) (String.singleton off) row =
      String.ofList (row.map fun p => if p then on else off) := by
  induction row with
  | nil => rfl
  | cons p row ih =>
    rw [rowText] at ih ⊢
    rw [List.map_cons, String.join_cons, ih, List.map_cons, String.ofList_cons]
    cases p with
    | true => rfl
    | false => rfl

/-- **The screen as text**: a line for each row, and in it a character for each column. -/
theorem text_eq (h : pixels.size = pixelCount) (on off : Char) :
    text pixels (String.singleton on) (String.singleton off) =
      .ok ("\n".intercalate ((List.range screenHeight).map (line on off pixels))) := by
  rw [text, rows_eq h]
  simp only [Except.map, List.map_map, Function.comp_def, rowText_eq]
  rfl

theorem line_char (on off : Char) (pixels : Array Bool) {x : Nat} (hx : x < screenWidth) (y : Nat) :
    (line on off pixels y).toList[x]? = some (if lit pixels x y then on else off) := by
  simp [line, hx]

/-! ## Image -/

/-- Each place of a stretched list shows the place that it was stretched from. -/
theorem stretch_getElem? {α : Type} {scale : Nat} (hscale : 0 < scale) (xs : List α) :
    ∀ i : Nat, (stretch scale xs)[i]? = xs[i / scale]? := by
  induction xs with
  | nil => simp [stretch]
  | cons x xs ih =>
    intro i
    rw [stretch, List.flatMap_cons, ← stretch]
    by_cases hi : i < scale
    · rw [List.getElem?_append_left (by simpa using hi), Nat.div_eq_of_lt hi]
      simp [hi]
    · rw [List.getElem?_append_right (by simpa using hi), List.length_replicate, ih,
        Nat.div_eq_sub_div hscale (Nat.le_of_not_lt hi), List.getElem?_cons_succ]

theorem length_stretch {α : Type} (scale : Nat) (xs : List α) :
    (stretch scale xs).length = scale * xs.length := by
  induction xs with
  | nil => rfl
  | cons x xs ih =>
    rw [stretch, List.flatMap_cons, ← stretch, List.length_append, List.length_replicate, ih,
      List.length_cons, Nat.mul_succ, Nat.add_comm]

/-- **The screen as an image**: each pixel is a square of points, and all channels of all of them
are as bright as it is. -/
theorem image_point (h : pixels.size = pixelCount) {scale : Nat} (hscale : 0 < scale) :
    ∃ picture, image pixels scale = .ok picture ∧
      ∀ x < screenWidth, ∀ y < screenHeight, ∀ dx < scale, ∀ dy < scale, ∀ channel < 3,
        picture.rows[scale * y + dy]?.bind (·[3 * (scale * x + dx) + channel]?) =
          some (brightness (lit pixels x y)) := by
  have hplace (n : Nat) {b k : Nat} (hk : k < b) : (b * n + k) / b = n := by
    rw [Nat.mul_add_div (Nat.zero_lt_of_lt hk), Nat.div_eq_of_lt hk, Nat.add_zero]
  refine ⟨_, by rw [image, magnifiable, if_neg (by omega), rows_eq h]; rfl, ?_⟩
  intro x hx y hy dx hdx dy hdy channel hchannel
  simp only [magnify, Int.toNat_natCast, stretch_getElem? hscale, hplace y hdy, List.map_map,
    List.getElem?_map, List.getElem?_range hy, Option.map_some, Option.bind_some,
    Function.comp_apply, stretch_getElem? (Nat.zero_lt_succ 2), hplace (scale * x + dx) hchannel,
    hplace x hdx, List.getElem?_range hx]

end Chip8.Screen
