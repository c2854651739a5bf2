import Chip8.Proofs.Instruction.Draw

/-!
# Drawing a picture away

A sprite drawn a second time in the same place flips the same pixels and so is gone again.

> **The screen is what it was before the first of the two** (`draw_twice`),

whatever was on it. What the flag says in between is another matter. The first drawing reports that
a pixel of the sprite was on, and the second that one was off before the first, since that is where
a pixel has been turned on to be turned off now. The flag is therefore clear both times only if the
sprite has no pixel at all; drawing one on an empty screen and erasing it clears the flag and then
sets it.

The corner of the sprite is in registers, and must not be in the one that gets the flag.
-/

set_option autoImplicit false

namespace Chip8

open State

/-! ## The flag -/

/-- The flag register says whether something is so. -/
structure State.FlagTells (s : State) (p : Prop) : Prop where
  set : p → s.reg 0xF = 1
  clear : ¬ p → s.reg 0xF = 0

theorem State.FlagTells.eq_zero_iff {s : State} {p : Prop} (h : s.FlagTells p) :
    s.reg 0xF = 0 ↔ ¬ p := by
  by_cases hp : p
  · simp [hp, h.set hp]
  · simp [hp, h.clear hp]

namespace State

variable {s : State} {x y n : Nibble}

/-! ## Sprites without a pixel -/

/-- All rows of the sprite at the index are zero. -/
def SpriteBlank (s : State) (n : Nibble) : Prop :=
  ∀ r < n.val, s.memory.getD ((s.index + r) % 4096).toNat 0 = 0

/-- A byte that is not zero has a bit, and there are eight columns for it. -/
theorem exists_column_of_ne_zero {row : UInt8} (h : row ≠ 0) :
    ∃ c < 8, row.toNat.testBit (7 - c) = true := by
  have hnumber : row.toNat ≠ 0 := fun heq => h (UInt8.toNat_inj.mp heq)
  obtain ⟨i, hi⟩ := Nat.exists_testBit_of_ne_zero hnumber
  have hlt : i < 8 := by
    rcases Nat.lt_or_ge i 8 with hlt | hge
    · exact hlt
    · have hsmall : row.toNat < 2 ^ i :=
        Nat.lt_of_lt_of_le row.toNat_lt (Nat.pow_le_pow_right (by decide) hge)
      rw [Nat.testBit_lt_two_pow hsmall] at hi
      exact absurd hi (by decide)
  refine ⟨7 - i, by omega, ?_⟩
  have hback : 7 - (7 - i) = i := by omega
  rw [hback]
  exact hi

/-- A sprite strikes nothing only if there is nothing in it. -/
theorem spriteBlank_iff : s.SpriteBlank n ↔ ∀ px py, ¬ s.Struck x y n px py := by
  constructor
  · intro hblank px py ⟨r, c, hstrikes⟩
    have hbit := hstrikes.bit
    rw [hblank r hstrikes.row] at hbit
    simp at hbit
  · intro hnone r hr
    by_cases hrow : s.memory.getD ((s.index + r) % 4096).toNat 0 = 0
    · exact hrow
    · obtain ⟨c, hc, hbit⟩ := exists_column_of_ne_zero hrow
      exact absurd ⟨r, c, hr, hc, rfl, rfl, hbit⟩ (hnone _ _)

/-! ## The state after a drawing -/

/-- The state behind a sprite that has been drawn. -/
def drawn (s : State) (x y n : Nibble) : State := (Instruction.draw x y n).effect s

theorem drawn_valid (hs : s.Valid) (hroom : s.pc + 2 < memorySize) : (s.drawn x y n).Valid :=
  Instruction.effect_valid hs (overrun?_of_room hroom)

theorem drawn_pc : (s.drawn x y n).pc = s.pc + 2 := rfl

theorem drawn_pixels : (s.drawn x y n).pixels = (s.drawing x y n).pixels := rfl

theorem drawn_redraw : (s.drawn x y n).redraw = (s.redraw || (s.drawing x y n).changed) := rfl

/-- Of the registers only the one for the flag changes. -/
theorem drawn_reg {z : Nibble} (hz : z ≠ 0xF) : (s.drawn x y n).reg z = s.reg z := by
  refine reg_setReg_of_ne _ ?_ _
  intro heq
  exact hz (Fin.ext heq.symm)

theorem drawn_flagTells (hs : s.Valid) :
    (s.drawn x y n).FlagTells
      (∃ px py, s.Struck x y n px py ∧ pixelAt s.pixels px py = true) := by
  have hcollision := (drawing_drawn (x := x) (y := y) (n := n) hs.pixels_size).collision
  have hflag : (s.drawn x y n).reg 0xF = if (s.drawing x y n).collision then 1 else 0 :=
    reg_setReg_self hs.registers_size (by decide) _
  constructor
  · intro hon
    rw [hflag, hcollision.mpr hon]
    rfl
  · intro hoff
    have hclear := mt hcollision.mp hoff
    rw [hflag, if_neg hclear]

/-- If the corner stays where it is, the second drawing strikes what the first one did. -/
theorem struck_drawn (hx : x ≠ 0xF) (hy : y ≠ 0xF) {px py : Nat} :
    (s.drawn x y n).Struck x y n px py ↔ s.Struck x y n px py :=
  struck_congr rfl rfl (drawn_reg hx) (drawn_reg hy)

/-- The pixels that are struck are flipped twice. -/
theorem drawn_drawn_pixels (hs : s.Valid) (hroom : s.pc + 2 < memorySize) (hx : x ≠ 0xF)
    (hy : y ≠ 0xF) : ((s.drawn x y n).drawn x y n).pixels = s.pixels := by
  have hs₁ : (s.drawn x y n).Valid := drawn_valid hs hroom
  have hfirst := drawing_drawn (x := x) (y := y) (n := n) hs.pixels_size
  have hsecond := drawing_drawn (x := x) (y := y) (n := n) hs₁.pixels_size
  refine eq_of_pixelAt (hsecond.size.trans hs₁.pixels_size) hs.pixels_size ?_
  intro px hpx py hpy
  rw [drawn_pixels]
  by_cases hstruck : s.Struck x y n px py
  · rw [hsecond.flipped px py ((struck_drawn hx hy).mpr hstruck), drawn_pixels,
      hfirst.flipped px py hstruck, Bool.not_not]
  · rw [hsecond.kept px hpx py hpy (mt (struck_drawn hx hy).mp hstruck), drawn_pixels,
      hfirst.kept px hpx py hpy hstruck]

/-- What the second drawing turns off is what the first has turned on. -/
theorem drawn_drawn_flagTells (hs : s.Valid) (hroom : s.pc + 2 < memorySize) (hx : x ≠ 0xF)
    (hy : y ≠ 0xF) :
    ((s.drawn x y n).drawn x y n).FlagTells
      (∃ px py, s.Struck x y n px py ∧ pixelAt s.pixels px py = false) := by
  have hfirst := drawing_drawn (x := x) (y := y) (n := n) hs.pixels_size
  have hsame : (∃ px py, (s.drawn x y n).Struck x y n px py ∧
      pixelAt (s.drawn x y n).pixels px py = true) ↔
      ∃ px py, s.Struck x y n px py ∧ pixelAt s.pixels px py = false := by
    refine exists_congr fun px => exists_congr fun py => ?_
    rw [struck_drawn hx hy]
    refine and_congr_right fun hstruck => ?_
    rw [drawn_pixels, hfirst.flipped px py hstruck, Bool.not_eq_true']
  rw [← hsame]
  exact drawn_flagTells (drawn_valid hs hroom)

theorem drawn_redraw_of_blank (hs : s.Valid) (hblank : s.SpriteBlank n) :
    (s.drawn x y n).redraw = s.redraw := by
  have hchanged := (drawing_drawn (x := x) (y := y) (n := n) hs.pixels_size).changed
  have hnone : ¬ ∃ px py, s.Struck x y n px py := by
    intro ⟨px, py, hstruck⟩
    exact spriteBlank_iff.mp hblank px py hstruck
  have hoff := Bool.eq_false_iff.mpr (mt hchanged.mp hnone)
  rw [drawn_redraw, hoff, Bool.or_false]

end State

namespace Machine

variable {m : Machine}

theorem carryOut_draw (hv : m.state.Valid) (hroom : m.state.pc + 2 < memorySize)
    (x y n : Nibble) :
    carryOut ⟨0xD, x, y, n⟩ m = .ok none { m with state := m.state.drawn x y n } :=
  carryOut_encode (i := .draw x y n) hv (overrun?_of_room hroom)

/-- **A sprite that is drawn twice is gone.** The screen is the one from before. The flag says after
the first drawing whether a pixel that is struck was on, and after the second whether one was off;
both times it is clear only if the sprite is blank, and then the mark for a changed screen stays as
it was. -/
theorem draw_twice (hv : m.state.Valid) (hroom : m.state.pc + 4 < memorySize) {x y : Nibble}
    (hx : x ≠ 0xF) (hy : y ≠ 0xF) (n : Nibble) :
    ∃ m₁ m₂, carryOut ⟨0xD, x, y, n⟩ m = .ok none m₁ ∧
      carryOut ⟨0xD, x, y, n⟩ m₁ = .ok none m₂ ∧
      m₂.state.pixels = m.state.pixels ∧
      m₁.state.FlagTells
        (∃ px py, m.state.Struck x y n px py ∧ pixelAt m.state.pixels px py = true) ∧
      m₂.state.FlagTells
        (∃ px py, m.state.Struck x y n px py ∧ pixelAt m.state.pixels px py = false) ∧
      (m₁.state.reg 0xF = 0 ∧ m₂.state.reg 0xF = 0 ↔ m.state.SpriteBlank n) ∧
      (m.state.SpriteBlank n →
        m₁.state.redraw = m.state.redraw ∧ m₂.state.redraw = m.state.redraw) := by
  have hroom₁ : m.state.pc + 2 < memorySize := by omega
  have hv₁ : (m.state.drawn x y n).Valid := drawn_valid hv hroom₁
  have hroom₂ : (m.state.drawn x y n).pc + 2 < memorySize := by
    rw [drawn_pc]
    omega
  have hfirst : (m.state.drawn x y n).FlagTells _ := drawn_flagTells hv
  have hsecond := drawn_drawn_flagTells (n := n) hv hroom₁ hx hy
  have hcarry₂ := carryOut_draw (m := { m with state := m.state.drawn x y n }) hv₁ hroom₂ x y n
  refine ⟨_, _, carryOut_draw hv hroom₁ x y n, hcarry₂, drawn_drawn_pixels hv hroom₁ hx hy, hfirst,
    hsecond, ?_, ?_⟩
  · rw [hfirst.eq_zero_iff, hsecond.eq_zero_iff, spriteBlank_iff (x := x) (y := y)]
    constructor
    · intro ⟨hon, hoff⟩ px py hstruck
      cases hpixel : pixelAt m.state.pixels px py with
      | true => exact hon ⟨px, py, hstruck, hpixel⟩
      | false => exact hoff ⟨px, py, hstruck, hpixel⟩
    · intro hnone
      exact ⟨fun ⟨px, py, hstruck, _⟩ => hnone px py hstruck,
        fun ⟨px, py, hstruck, _⟩ => hnone px py hstruck⟩
  · intro hblank
    have hredraw : (m.state.drawn x y n).redraw = m.state.redraw := drawn_redraw_of_blank hv hblank
    -- the sprite is the same at the second drawing, since memory and index are
    have hblank₁ : (m.state.drawn x y n).SpriteBlank n := hblank
    exact ⟨hredraw, (drawn_redraw_of_blank hv₁ hblank₁).trans hredraw⟩

end Machine

/-! ## A smudge round both edges -/

namespace State

variable {s : State}

/-- A state about to draw a sprite round both edges of the screen and round the end of memory, of
which one pixel is on already and the one beside it is not. -/
def smudged (s : State) : State :=
  { (s.setByte 0 0x30).setReg 0 62 with
    index := 0xFFFF
    pixels := (s.pixels.setIfInBounds (31 * 64) true).setIfInBounds (31 * 64 + 1) false }

theorem smudged_valid (hs : s.Valid) : s.smudged.Valid :=
  { hs with
    memory_size := (setByte_memory_size s 0 0x30).trans hs.memory_size
    registers_size := (setReg_registers_size s 0 62).trans hs.registers_size
    pixels_size :=
      (Array.size_setIfInBounds.trans Array.size_setIfInBounds).trans hs.pixels_size
    index_mem := (by decide : (0 : Int) ≤ 0xFFFF ∧ (0xFFFF : Int) ≤ 0xFFFF) }

theorem smudged_pixel (hs : s.Valid) :
    pixelAt s.smudged.pixels 0 31 = true ∧ pixelAt s.smudged.pixels 1 31 = false := by
  have hsize : s.pixels.size = 2048 := hs.pixels_size
  constructor
  · have hon : (s.pixels.setIfInBounds (31 * 64) true).getD (31 * 64) false = true :=
      getD_setIfInBounds_self (by omega) true false
    rw [Array.getD_eq_getD_getElem?] at hon
    rw [pixelAt, smudged, Array.getD_eq_getD_getElem?, Array.getElem?_setIfInBounds_ne (by decide)]
    exact hon
  · refine getD_setIfInBounds_self ?_ false false
    rw [Array.size_setIfInBounds]
    omega

theorem smudged_struck (hs : s.Valid) {px : Nat} (hpx : px < 2) :
    s.smudged.Struck 0x0 0x0 0x2 px 31 := by
  have hreg : s.smudged.reg 0 = 62 := reg_setReg_self hs.registers_size (by decide) 62
  have hbyte : s.smudged.byte 0 = 0x30 := byte_setByte_self hs.memory_size 0 0x30
  refine ⟨1, px + 2, by decide, by omega, ?_, ?_, ?_⟩
  · have hacross := congrArg (fun v : UInt8 => (v.toNat + (px + 2)) % 64) hreg
    refine Eq.trans ?_ hacross.symm
    have hcorner : (62 : UInt8).toNat = 62 := rfl
    simp only [hcorner]
    omega
  · exact (congrArg (fun v : UInt8 => (v.toNat + 1) % 32) hreg).symm
  · refine (congrArg (fun v : UInt8 => v.toNat.testBit (7 - (px + 2))) hbyte).trans ?_
    match px, hpx with
    | 0, _ => decide
    | 1, _ => decide

end State

namespace Machine

/-- The first drawing turns one pixel off and the other on, the second puts that right, and the flag
is set both times. -/
theorem draw_twice_smudged : ∃ m₁ m₂,
    carryOut ⟨0xD, 0x0, 0x0, 0x2⟩ { standard with state := standard.state.smudged } = .ok none m₁ ∧
    carryOut ⟨0xD, 0x0, 0x0, 0x2⟩ m₁ = .ok none m₂ ∧
    m₂.state.pixels = standard.state.smudged.pixels ∧
    m₁.state.reg 0xF = 1 ∧ m₂.state.reg 0xF = 1 := by
  have hv := smudged_valid standard_valid
  obtain ⟨hon, hoff⟩ := smudged_pixel standard_valid
  have hcorner : (0x0 : Nibble) ≠ 0xF := by decide
  obtain ⟨m₁, m₂, hfirst, hsecond, hpixels, hflag₁, hflag₂, -⟩ :=
    draw_twice (m := { standard with state := standard.state.smudged }) hv (by decide) hcorner
      hcorner 0x2
  exact ⟨m₁, m₂, hfirst, hsecond, hpixels,
    hflag₁.set ⟨0, 31, smudged_struck standard_valid (by decide), hon⟩,
    hflag₂.set ⟨1, 31, smudged_struck standard_valid (by decide), hoff⟩⟩

end Machine

end Chip8
