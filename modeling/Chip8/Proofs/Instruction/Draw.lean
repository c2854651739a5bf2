import Chip8.Proofs.Screen.Drawing
import Chip8.Proofs.Machine.Cycle
import Chip8.Proofs.Machine.Fresh

/-!
# Drawing by points

The handler of the drawing instruction goes through the sprite row by row and bit by bit, flips a
pixel wherever a bit is set, and looks at each pixel just before it flips it. What comes of it is
said here by points of the screen. A point is *struck* if a set bit of the sprite falls on it, and
there are three ways round for that: the picture wraps at the right edge and at the lower one, and
the rows of the sprite are read on from the start of memory at its end (`State.Strikes`).

> **The pixels that are struck are flipped and the others are not** (`draw_exact`),

the flag says whether one of them was on before, and the mark for a changed screen is set if there
is one at all. All of it is about the state before the instruction, whichever registers the origin
is in.

It rests on this, that a point is struck by one bit at most. Were a pixel flipped twice, it would be
as before, and the second look would be at a screen already changed.
-/

set_option autoImplicit false

namespace Chip8

open State

/-! ## The points that are struck -/

/-- The pixel at column `px` and row `py` of a screen. -/
def pixelAt (pixels : Array Bool) (px py : Nat) : Bool := pixels.getD (px + py * 64) false

/-- A screen is known by its points. -/
theorem eq_of_pixelAt {screen screen' : Array Bool} (hsize : screen.size = pixelCount)
    (hsize' : screen'.size = pixelCount)
    (h : ∀ px < 64, ∀ py < 32, pixelAt screen px py = pixelAt screen' px py) :
    screen = screen' := by
  have hcount : pixelCount = 64 * 32 := rfl
  refine Array.ext (hsize.trans hsize'.symm) fun p hp hp' => ?_
  have hplace : p % 64 + p / 64 * 64 = p := Nat.mod_add_div' p 64
  have hpixel := h (p % 64) (by omega) (p / 64) (by omega)
  rw [pixelAt, pixelAt, hplace] at hpixel
  have hsome := getElem?_eq_some_getD hp false
  have hsome' := getElem?_eq_some_getD hp' false
  rw [Array.getElem?_eq_getElem hp, hpixel, ← hsome', Array.getElem?_eq_getElem hp'] at hsome
  exact Option.some_inj.mp hsome

namespace State

/-- The bit in row `r` and column `c` of the sprite at the index is set, and falls on a point when
the sprite is drawn with its corner at the values of two registers. -/
structure Strikes (s : State) (x y n : Nibble) (px py r c : Nat) : Prop where
  row : r < n.val
  column : c < 8
  across : px = ((s.reg x).toNat + c) % 64
  down : py = ((s.reg y).toNat + r) % 32
  bit : (s.memory.getD ((s.index + r) % 4096).toNat 0).toNat.testBit (7 - c) = true

/-- Some bit of the sprite falls on the point. -/
def Struck (s : State) (x y n : Nibble) (px py : Nat) : Prop := ∃ r c, s.Strikes x y n px py r c

/-- What is to come of a drawing, point by point. -/
structure Drawn (s : State) (x y n : Nibble) (d : Drawing) : Prop where
  size : d.pixels.size = s.pixels.size
  flipped : ∀ px py, s.Struck x y n px py → pixelAt d.pixels px py = !pixelAt s.pixels px py
  kept : ∀ px < 64, ∀ py < 32, ¬ s.Struck x y n px py →
    pixelAt d.pixels px py = pixelAt s.pixels px py
  collision : d.collision = true ↔
    ∃ px py, s.Struck x y n px py ∧ pixelAt s.pixels px py = true
  changed : d.changed = true ↔ ∃ px py, s.Struck x y n px py

variable {s : State} {x y n : Nibble} {px py : Nat}

/-- A sprite is narrower and lower than the screen, so that it does not meet itself. -/
theorem Strikes.unique {r c r' c' : Nat} (h : s.Strikes x y n px py r c)
    (h' : s.Strikes x y n px py r' c') : r = r' ∧ c = c' := by
  have hrow := h.row
  have hrow' := h'.row
  have hcolumn := h.column
  have hcolumn' := h'.column
  have hacross := h.across.symm.trans h'.across
  have hdown := h.down.symm.trans h'.down
  omega

theorem Struck.onScreen (h : s.Struck x y n px py) : px < 64 ∧ py < 32 := by
  obtain ⟨r, c, h⟩ := h
  have hacross := h.across
  have hdown := h.down
  omega

/-- What is struck is settled by memory, the index and the corner. -/
theorem Struck.congr {t : State} (hmemory : t.memory = s.memory) (hindex : t.index = s.index)
    (hx : t.reg x = s.reg x) (hy : t.reg y = s.reg y) (h : s.Struck x y n px py) :
    t.Struck x y n px py := by
  obtain ⟨r, c, hrow, hcolumn, hacross, hdown, hbit⟩ := h
  rw [← hx] at hacross
  rw [← hy] at hdown
  rw [← hmemory, ← hindex] at hbit
  exact ⟨r, c, hrow, hcolumn, hacross, hdown, hbit⟩

theorem struck_congr {t : State} (hmemory : t.memory = s.memory) (hindex : t.index = s.index)
    (hx : t.reg x = s.reg x) (hy : t.reg y = s.reg y) :
    t.Struck x y n px py ↔ s.Struck x y n px py :=
  ⟨.congr hmemory.symm hindex.symm hx.symm hy.symm, .congr hmemory hindex hx hy⟩

/-! ## The places of the sprite are the points struck -/

/-- The places that are flipped when a sprite at the index is drawn. -/
def struckCells (s : State) (x y n : Nibble) : List Nat :=
  Sprite.cells (s.spriteAt s.index n) (s.reg x).toNat (s.reg y).toNat

theorem mem_zipIdx_spriteAt {a : Int} {m r : Nat} {row : UInt8} :
    (row, r) ∈ (s.spriteAt a m).zipIdx ↔ r < m ∧ row = s.byte (a + r) := by
  rw [List.mem_zipIdx_iff_getElem?, spriteAt, List.getElem?_map, Option.map_eq_some_iff]
  constructor
  · rintro ⟨r', hr', hrow⟩
    obtain ⟨hlt, rfl⟩ := List.getElem?_eq_some_iff.mp hr'
    rw [List.getElem_range] at hrow
    exact ⟨by simpa using hlt, hrow.symm⟩
  · rintro ⟨hlt, rfl⟩
    exact ⟨r, List.getElem?_range hlt, rfl⟩

theorem mem_struckCells {p : Nat} :
    p ∈ s.struckCells x y n ↔ ∃ px py, s.Struck x y n px py ∧ p = px + py * 64 := by
  rw [struckCells, Sprite.mem_cells]
  constructor
  · rintro ⟨row, r, hrow, hp⟩
    obtain ⟨hr, rfl⟩ := mem_zipIdx_spriteAt.mp hrow
    obtain ⟨c, hc, hbit, rfl⟩ := Sprite.mem_rowCells.mp hp
    exact ⟨_, _, ⟨r, c, hr, hc, rfl, rfl, hbit⟩, rfl⟩
  · rintro ⟨px, py, ⟨r, c, h⟩, rfl⟩
    refine ⟨_, r, mem_zipIdx_spriteAt.mpr ⟨h.row, rfl⟩,
      Sprite.mem_rowCells.mpr ⟨c, h.column, h.bit, ?_⟩⟩
    rw [h.across, h.down]
    rfl

theorem struck_iff_mem (hpx : px < 64) :
    s.Struck x y n px py ↔ px + py * 64 ∈ s.struckCells x y n := by
  rw [mem_struckCells]
  constructor
  · exact fun h => ⟨px, py, h, rfl⟩
  · rintro ⟨px', py', h, heq⟩
    have hon := h.onScreen
    obtain ⟨rfl, rfl⟩ : px = px' ∧ py = py' := by omega
    exact h

theorem struckCells_nodup : (s.struckCells x y n).Nodup := by
  refine Sprite.cells_nodup ?_
  rw [spriteAt_length, screenHeight]
  omega

/-! ## What the drawing comes to -/

theorem drawing_pixel (hs : s.pixels.size = pixelCount) (hpx : px < 64) (hpy : py < 32) :
    pixelAt (s.drawing x y n).pixels px py =
      if px + py * 64 ∈ s.struckCells x y n then !pixelAt s.pixels px py
      else pixelAt s.pixels px py := by
  have hlt : px + py * 64 < s.pixels.size := by
    have hcount : pixelCount = 2048 := rfl
    omega
  have hpixel : (s.drawing x y n).pixels[px + py * 64]? =
      if px + py * 64 ∈ s.struckCells x y n then s.pixels[px + py * 64]?.map not
      else s.pixels[px + py * 64]? :=
    Drawing.flipAll_pixel struckCells_nodup _ (Drawing.start s.pixels)
  rw [pixelAt, pixelAt, Array.getD_eq_getD_getElem?, Array.getD_eq_getD_getElem?, hpixel,
    Array.getElem?_eq_getElem hlt]
  split
  · rfl
  · rfl

/-- A drawing flips what is struck, once. -/
theorem drawing_drawn (hs : s.pixels.size = pixelCount) : s.Drawn x y n (s.drawing x y n) where
  size := Drawing.flipAll_size _ _
  flipped := by
    intro px py h
    obtain ⟨hpx, hpy⟩ := h.onScreen
    rw [drawing_pixel hs hpx hpy, if_pos ((struck_iff_mem hpx).mp h)]
  kept := by
    intro px hpx py hpy h
    rw [drawing_pixel hs hpx hpy, if_neg fun hmem => h ((struck_iff_mem hpx).mpr hmem)]
  collision := by
    have hcollision := Drawing.flipAll_collision (s.struckCells_nodup (x := x) (y := y) (n := n))
      (Drawing.start s.pixels)
    refine hcollision.trans ?_
    constructor
    · rintro (hfalse | ⟨p, hp, hon⟩)
      · cases hfalse
      · obtain ⟨px, py, hstruck, rfl⟩ := mem_struckCells.mp hp
        exact ⟨px, py, hstruck, hon⟩
    · rintro ⟨px, py, hstruck, hon⟩
      exact .inr ⟨_, mem_struckCells.mpr ⟨px, py, hstruck, rfl⟩, hon⟩
  changed := by
    refine (Drawing.flipAll_changed _ _).trans ?_
    constructor
    · rintro (hfalse | hne)
      · cases hfalse
      · obtain ⟨p, hp⟩ := List.exists_mem_of_ne_nil _ hne
        obtain ⟨px, py, hstruck, -⟩ := mem_struckCells.mp hp
        exact ⟨px, py, hstruck⟩
    · rintro ⟨px, py, hstruck⟩
      exact .inr (List.ne_nil_of_mem (mem_struckCells.mpr ⟨px, py, hstruck, rfl⟩))

end State

namespace Machine

/-- **Drawing flips the pixels that the sprite strikes.** A point is struck by one bit at most. The
flag is set if one that is struck was on before, the mark for a changed screen if there is one, and
nothing else changes but the program counter. -/
theorem draw_exact {m : Machine} (hv : m.state.Valid) (hroom : m.state.pc + 2 < memorySize)
    (x y n : Nibble) :
    (∀ px py r c r' c', m.state.Strikes x y n px py r c → m.state.Strikes x y n px py r' c' →
      r = r' ∧ c = c') ∧
    ∃ d : Drawing, m.state.Drawn x y n d ∧
      carryOut ⟨0xD, x, y, n⟩ m = .ok none { m with state := { m.state with
        pixels := d.pixels
        registers := m.state.registers.setIfInBounds 0xF (if d.collision then 1 else 0)
        redraw := m.state.redraw || d.changed
        pc := m.state.pc + 2 } } := by
  refine ⟨fun _ _ _ _ _ _ h h' => h.unique h', m.state.drawing x y n,
    drawing_drawn hv.pixels_size, ?_⟩
  have hfault : (Instruction.draw x y n).fault? m.state = none := overrun?_of_room hroom
  exact carryOut_encode hv hfault

end Machine

/-! ## A picture round both edges -/

namespace State

/-- A state about to draw a sprite that goes round the screen and round memory, with its second row
at address 0 and its corner near the corner of the screen, and one pixel on. -/
def cornered (s : State) : State :=
  { (s.setByte 0 0x20).setReg flagRegister 62 with
    index := 0xFFFF
    pixels := s.pixels.setIfInBounds (31 * 64) true }

variable {s : State}

theorem cornered_valid (hs : s.Valid) : s.cornered.Valid :=
  { hs with
    memory_size := (setByte_memory_size s 0 0x20).trans hs.memory_size
    registers_size := (setReg_registers_size s flagRegister 62).trans hs.registers_size
    pixels_size := Array.size_setIfInBounds.trans hs.pixels_size
    index_mem := (by decide : (0 : Int) ≤ 0xFFFF ∧ (0xFFFF : Int) ≤ 0xFFFF) }

theorem cornered_pixel (hs : s.Valid) : pixelAt s.cornered.pixels 0 31 = true :=
  getD_setIfInBounds_self (Nat.lt_of_lt_of_eq (by decide) hs.pixels_size.symm) true false

theorem cornered_struck (hs : s.Valid) : s.cornered.Struck 0xF 0xF 0x2 0 31 := by
  have hreg : s.cornered.reg flagRegister = 62 :=
    reg_setReg_self hs.registers_size (by decide) 62
  have hbyte : s.cornered.byte 0 = 0x20 := byte_setByte_self hs.memory_size 0 0x20
  refine ⟨1, 2, by decide, by decide, ?_, ?_, ?_⟩
  · exact (congrArg (fun v : UInt8 => (v.toNat + 2) % 64) hreg).symm
  · exact (congrArg (fun v : UInt8 => (v.toNat + 1) % 32) hreg).symm
  · exact (congrArg (fun v : UInt8 => v.toNat.testBit (7 - 2)) hbyte).trans (by decide)

end State

namespace Machine

/-- A pixel that the sprite comes to round both edges, with a row from the other end of memory, is
turned off; both coordinates come from the register that gets the flag. -/
theorem draw_exact_cornered : ∃ m,
    carryOut ⟨0xD, 0xF, 0xF, 0x2⟩ { standard with state := standard.state.cornered } = .ok none m ∧
      pixelAt m.state.pixels 0 31 = false ∧ m.state.reg 0xF = 1 ∧ m.state.redraw = true := by
  have hv := cornered_valid standard_valid
  have hon := cornered_pixel standard_valid
  have hstruck := cornered_struck standard_valid
  obtain ⟨-, d, hdrawn, hcarry⟩ :=
    draw_exact (m := { standard with state := standard.state.cornered }) hv (by decide) 0xF 0xF 0x2
  have hflag : d.collision = true := hdrawn.collision.mpr ⟨0, 31, hstruck, hon⟩
  have hmark : d.changed = true := hdrawn.changed.mpr ⟨0, 31, hstruck⟩
  rw [hflag, hmark] at hcarry
  refine ⟨_, hcarry, ?_, rfl, rfl⟩
  exact (hdrawn.flipped 0 31 hstruck).trans (congrArg not hon)

end Machine

end Chip8
