import Chip8.Proofs.Instruction.Table
import Chip8.Proofs.Screen.Erasing

/-!
# Pictures drawn over one another

A host can have any number of sprites drawn, by putting their index and their corners into the state
and asking for the drawing. As long as memory stays the same, all that counts for a pixel is how
many of them cover it:

> **a pixel is flipped if an odd number of the sprites covers it** (`drawings_overlay`).

The order they are drawn in does not count, nor do the registers that are used for the corners, and
two that are the same take each other away.

Which sprites cover a point is said by the requests and by memory (`DrawRequest.Covers`), and not by
the states the machine goes through. One drawing adds one request to the count, and the rest is an
induction over their list.
-/

set_option autoImplicit false

namespace Chip8

open State Outcome

/-! ## Requests -/

/-- A sprite that is to be drawn: where it is in memory, how high it is and where it goes. -/
structure DrawRequest where
  index : Fin 0x10000
  left : UInt8
  top : UInt8
  height : Nibble
deriving DecidableEq

/-- A set bit of the sprite falls on a point. The screen and memory are gone round. -/
def DrawRequest.Covers (q : DrawRequest) (memory : Array UInt8) (px py : Nat) : Prop :=
  ∃ r < q.height.val, ∃ c < 8,
    px = (q.left.toNat + c) % 64 ∧ py = (q.top.toNat + r) % 32 ∧
      (memory.getD ((q.index.val + r) % 4096) 0).toNat.testBit (7 - c) = true

instance (q : DrawRequest) (memory : Array UInt8) (px py : Nat) :
    Decidable (q.Covers memory px py) :=
  inferInstanceAs (Decidable (∃ r < q.height.val, ∃ c < 8,
    px = (q.left.toNat + c) % 64 ∧ py = (q.top.toNat + r) % 32 ∧
      (memory.getD ((q.index.val + r) % 4096) 0).toNat.testBit (7 - c) = true))

/-- How many of some sprites cover a point. -/
def coverCount (memory : Array UInt8) (px py : Nat) (requests : List DrawRequest) : Nat :=
  requests.countP fun q => q.Covers memory px py

/-- A request together with the two registers that its corner is put into. -/
structure DrawCall where
  request : DrawRequest
  x : Nibble
  y : Nibble
  distinct : x ≠ y

namespace DrawCall

/-- Has a sprite drawn: program counter, corner and index are set, and the drawing is asked for. -/
def perform (t : OperationTable) (c : DrawCall) : State.Action Unit := do
  setPc programStart
  setRegister c.x.val c.request.left.toNat
  setRegister c.y.val c.request.top.toNat
  modify fun s => { s with index := c.request.index.val }
  t.execute "OP_DRW" { x := some c.x.val, y := some c.y.val, n := some c.request.height.val }

/-- The state in which the drawing is asked for. -/
def posed (c : DrawCall) (s : State) : State :=
  { (s.setReg c.x c.request.left).setReg c.y c.request.top with
    pc := programStart, index := c.request.index.val }

variable {s : State} (c : DrawCall)

theorem posed_valid (hs : s.Valid) : (c.posed s).Valid := by
  have hkept := ((setReg_keeps s c.x c.request.left).trans
    (setReg_keeps _ c.y c.request.top)).valid hs
  have hindex : 0 ≤ (c.request.index.val : Int) ∧ (c.request.index.val : Int) ≤ 0xFFFF := by
    omega
  exact { hkept with
    pc_mem := (by decide : (0 : Int) ≤ programStart ∧ (programStart : Int) < memorySize)
    index_mem := hindex }

theorem posed_left (hs : s.Valid) : (c.posed s).reg c.x = c.request.left := by
  have hother : c.y.val ≠ c.x.val := fun heq => c.distinct (Fin.ext heq.symm)
  exact (reg_setReg_of_ne _ hother _).trans (reg_setReg_self hs.registers_size c.x.isLt _)

theorem posed_top (hs : s.Valid) : (c.posed s).reg c.y = c.request.top :=
  reg_setReg_self ((setReg_registers_size s _ _).trans hs.registers_size) c.y.isLt _

/-- What is struck in the state so set is what the request covers. -/
theorem struck_posed (hs : s.Valid) {px py : Nat} :
    (c.posed s).Struck c.x c.y c.request.height px py ↔ c.request.Covers s.memory px py := by
  have hplace : ∀ r : Nat, (((c.posed s).index + r) % 4096).toNat =
      (c.request.index.val + r) % 4096 := by
    intro r
    simp only [posed]
    omega
  constructor
  · intro ⟨r, k, hrow, hcolumn, hacross, hdown, hbit⟩
    rw [posed_left c hs] at hacross
    rw [posed_top c hs] at hdown
    rw [hplace] at hbit
    exact ⟨r, hrow, k, hcolumn, hacross, hdown, hbit⟩
  · intro ⟨r, hrow, k, hcolumn, hacross, hdown, hbit⟩
    rw [← posed_left c hs] at hacross
    rw [← posed_top c hs] at hdown
    rw [← hplace] at hbit
    exact ⟨r, k, hrow, hcolumn, hacross, hdown, hbit⟩

/-- The state behind the drawing. -/
def outcome (c : DrawCall) (s : State) : State := (c.posed s).drawn c.x c.y c.request.height

theorem perform_apply (t : OperationTable) (hs : s.Valid) :
    c.perform t s = .ok () (c.outcome s) := by
  have hstart : 0 ≤ (programStart : Int) ∧ (programStart : Int) < memorySize := by decide
  have hroom : (programStart : Int) + 2 < memorySize := by decide
  have hfault : (Instruction.draw c.x c.y c.request.height).fault? (c.posed s) = none :=
    overrun?_of_room hroom
  have hdraw := t.execute_instruction (c.posed_valid hs) (.draw c.x c.y c.request.height)
  rw [hfault, settled_none] at hdraw
  have hsize : { s with pc := (programStart : Int) }.registers.size = registerCount :=
    hs.registers_size
  rw [perform, bind_of_ok (setPc_of_mem hstart),
    bind_of_ok (setRegister_apply hsize c.x.isLt c.request.left),
    bind_of_ok (setRegister_apply ((setReg_registers_size _ _ _).trans hsize) c.y.isLt
      c.request.top), bind_of_ok (modify_apply _ _)]
  exact hdraw

theorem outcome_valid (hs : s.Valid) : (c.outcome s).Valid :=
  drawn_valid (c.posed_valid hs) (by decide : (programStart : Int) + 2 < memorySize)

theorem outcome_memory : (c.outcome s).memory = s.memory := rfl

/-- One drawing flips what it covers. -/
theorem outcome_pixel (hs : s.Valid) {px py : Nat} (hpx : px < 64) (hpy : py < 32) :
    pixelAt (c.outcome s).pixels px py =
      (pixelAt s.pixels px py ^^ decide (c.request.Covers s.memory px py)) := by
  have hdrawn := drawing_drawn (x := c.x) (y := c.y) (n := c.request.height)
    (c.posed_valid hs).pixels_size
  by_cases hcovers : c.request.Covers s.memory px py
  · have hflipped := hdrawn.flipped px py ((c.struck_posed hs).mpr hcovers)
    rw [decide_eq_true hcovers, Bool.xor_true]
    exact hflipped
  · have hkept := hdrawn.kept px hpx py hpy (mt (c.struck_posed hs).mp hcovers)
    rw [decide_eq_false hcovers, Bool.xor_false]
    exact hkept

end DrawCall

/-! ## One request after another -/

/-- The state after some sprites have been drawn over the screen. -/
structure State.Overlaid (s : State) (requests : List DrawRequest) (s' : State) : Prop where
  valid : s'.Valid
  memory : s'.memory = s.memory
  pixel : ∀ px < 64, ∀ py < 32, pixelAt s'.pixels px py =
    (pixelAt s.pixels px py ^^ decide (coverCount s.memory px py requests % 2 = 1))

/-- One more makes the even odd, and the odd even. -/
theorem odd_add_one_if (p : Bool) (n : Nat) :
    decide ((n + if p = true then 1 else 0) % 2 = 1) = (p ^^ decide (n % 2 = 1)) := by
  cases p with
  | false => exact (Bool.false_xor _).symm
  | true =>
    have hodd : (n + 1) % 2 = 1 ↔ ¬ n % 2 = 1 := by omega
    rw [if_pos rfl, decide_eq_decide.mpr hodd, decide_not, Bool.true_xor]

namespace State.Overlaid

variable {s s' : State} {requests : List DrawRequest}

theorem refl (hs : s.Valid) : s.Overlaid [] s where
  valid := hs
  memory := rfl
  pixel := by
    intro px _ py _
    exact (Bool.xor_false _).symm

/-- A drawing and then the others. -/
theorem cons (hs : s.Valid) (c : DrawCall) (h : (c.outcome s).Overlaid requests s') :
    s.Overlaid (c.request :: requests) s' where
  valid := h.valid
  memory := h.memory
  pixel := by
    intro px hpx py hpy
    have hcount : coverCount s.memory px py (c.request :: requests) =
        coverCount s.memory px py requests +
          if decide (c.request.Covers s.memory px py) = true then 1 else 0 :=
      List.countP_cons
    rw [h.pixel px hpx py hpy, c.outcome_pixel hs hpx hpy, c.outcome_memory, hcount,
      odd_add_one_if, Bool.xor_assoc]

/-- Requests that cover each point as often, up to an even number, make the same picture. -/
theorem pixels_eq {requests' : List DrawRequest} {t : State} (h : s.Overlaid requests s')
    (h' : s.Overlaid requests' t)
    (heven : ∀ px py, coverCount s.memory px py requests' % 2 =
      coverCount s.memory px py requests % 2) : t.pixels = s'.pixels := by
  refine eq_of_pixelAt h'.valid.pixels_size h.valid.pixels_size ?_
  intro px hpx py hpy
  rw [h'.pixel px hpx py hpy, h.pixel px hpx py hpy, heven px py]

end State.Overlaid

theorem forM_perform (t : OperationTable) (calls : List DrawCall) : ∀ {s : State}, s.Valid →
    ∃ s', forM calls (DrawCall.perform t) s = .ok () s' ∧
      s.Overlaid (calls.map DrawCall.request) s' := by
  induction calls with
  | nil =>
    intro s hs
    exact ⟨s, rfl, .refl hs⟩
  | cons c calls ih =>
    intro s hs
    obtain ⟨s', hrun, hoverlaid⟩ := ih (c.outcome_valid hs)
    refine ⟨s', ?_, hoverlaid.cons hs c⟩
    rw [List.forM_cons, bind_of_ok (c.perform_apply t hs)]
    exact hrun

theorem coverCount_perm {requests requests' : List DrawRequest} (h : requests'.Perm requests)
    (memory : Array UInt8) (px py : Nat) :
    coverCount memory px py requests' = coverCount memory px py requests := h.countP_eq _

/-- Two that are the same count for two or for nothing. -/
theorem coverCount_pair (q : DrawRequest) (before between after : List DrawRequest)
    (memory : Array UInt8) (px py : Nat) :
    coverCount memory px py (before ++ between ++ after) % 2 =
      coverCount memory px py (before ++ q :: between ++ q :: after) % 2 := by
  simp only [coverCount, List.countP_append, List.countP_cons]
  omega

/-- **The order of drawing does not matter.** Every drawing succeeds, and in the end a pixel has been
flipped if an odd number of the sprites covers it. The same requests in another order make the same
screen, whatever registers are used for them, and so do the requests without two that are equal. -/
theorem drawings_overlay {s : State} (hs : s.Valid) (t : OperationTable) (calls : List DrawCall) :
    ∃ s', forM calls (DrawCall.perform t) s = .ok () s' ∧ s'.memory = s.memory ∧
      s'.pixels.size = pixelCount ∧
      (∀ px < 64, ∀ py < 32, pixelAt s'.pixels px py = (pixelAt s.pixels px py ^^
        decide (coverCount s.memory px py (calls.map DrawCall.request) % 2 = 1))) ∧
      (∀ calls' : List DrawCall,
        (calls'.map DrawCall.request).Perm (calls.map DrawCall.request) →
        ∃ u, forM calls' (DrawCall.perform t) s = .ok () u ∧ u.pixels = s'.pixels) ∧
      ∀ (before between after : List DrawCall) (c c' : DrawCall),
        calls = before ++ c :: between ++ c' :: after → c.request = c'.request →
        ∃ u, forM (before ++ between ++ after) (DrawCall.perform t) s = .ok () u ∧
          u.pixels = s'.pixels := by
  obtain ⟨s', hrun, hoverlaid⟩ := forM_perform t calls hs
  refine ⟨s', hrun, hoverlaid.memory, hoverlaid.valid.pixels_size, hoverlaid.pixel, ?_, ?_⟩
  · intro calls' hperm
    obtain ⟨u, hrun', hoverlaid'⟩ := forM_perform t calls' hs
    refine ⟨u, hrun', hoverlaid.pixels_eq hoverlaid' fun px py => ?_⟩
    rw [coverCount_perm hperm]
  · intro before between after c c' hcalls hsame
    obtain ⟨u, hrun', hoverlaid'⟩ := forM_perform t (before ++ between ++ after) hs
    refine ⟨u, hrun', hoverlaid.pixels_eq hoverlaid' fun px py => ?_⟩
    subst hcalls
    simp only [List.map_append, List.map_cons, ← hsame]
    exact coverCount_pair c.request _ _ _ s.memory px py

/-! ## Two glyphs across each other -/

theorem glyph_index_lt (digit : Nibble) : fontStart + glyphSize * digit.val < 0x10000 := by
  simp only [fontStart, glyphSize]
  omega

theorem glyphSize_lt : glyphSize < 16 := by decide

/-- The glyph of a hexadecimal digit, with a corner to put it at. -/
def DrawRequest.glyph (digit : Nibble) (left top : UInt8) : DrawRequest where
  index := ⟨fontStart + glyphSize * digit.val, glyph_index_lt digit⟩
  left := left
  top := top
  height := ⟨glyphSize, glyphSize_lt⟩

/-- As long as the font is in its place, a glyph covers what is set in its rows. -/
theorem glyph_covers {digit : Nibble} (left top : UInt8) {r c : Nat} (hr : r < glyphSize)
    (hc : c < 8)
    (hbit : (font.getD (glyphSize * digit.val + r) 0).toNat.testBit (7 - c) = true) :
    (DrawRequest.glyph digit left top).Covers initialMemory ((left.toNat + c) % 64)
      ((top.toNat + r) % 32) := by
  refine ⟨r, hr, c, hc, rfl, rfl, ?_⟩
  have hfont : glyphSize * digit.val + r < font.size := by
    have hsize : font.size = 80 := rfl
    have hdigit := digit.isLt
    simp only [glyphSize] at hr ⊢
    omega
  have hplace : ((DrawRequest.glyph digit left top).index.val + r) % 4096 =
      fontStart + (glyphSize * digit.val + r) := by
    have hdigit := digit.isLt
    simp only [DrawRequest.glyph, fontStart, glyphSize] at hr ⊢
    omega
  rw [hplace, initialMemory_font hfont]
  exact hbit

/-- The glyph of 0 drawn over that of 1 and under it, with other registers: a pixel that all three
cover is on, and the picture is the one of the 1 alone. -/
theorem drawings_overlay_glyphs : ∃ s' u,
    forM [⟨.glyph 0x0 62 30, 0x0, 0x1, by decide⟩, ⟨.glyph 0x1 60 31, 0xF, 0x2, by decide⟩,
      ⟨.glyph 0x0 62 30, 0x3, 0xF, by decide⟩] (DrawCall.perform {}) Machine.standard.state =
      .ok () s' ∧
    forM [⟨.glyph 0x1 60 31, 0xF, 0x2, by decide⟩] (DrawCall.perform {}) Machine.standard.state =
      .ok () u ∧
    u.pixels = s'.pixels ∧ pixelAt s'.pixels 62 31 = true := by
  obtain ⟨s', hrun, -, -, hpixel, -, hpair⟩ := drawings_overlay Machine.standard_valid {}
    [⟨.glyph 0x0 62 30, 0x0, 0x1, by decide⟩, ⟨.glyph 0x1 60 31, 0xF, 0x2, by decide⟩,
      ⟨.glyph 0x0 62 30, 0x3, 0xF, by decide⟩]
  obtain ⟨u, hrun', hsame⟩ := hpair [] [⟨.glyph 0x1 60 31, 0xF, 0x2, by decide⟩] []
    ⟨.glyph 0x0 62 30, 0x0, 0x1, by decide⟩ ⟨.glyph 0x0 62 30, 0x3, 0xF, by decide⟩ rfl rfl
  have hblank : pixelAt Machine.standard.state.pixels 62 31 = false := by
    have hpixels : Machine.standard.state.pixels = Array.replicate pixelCount false := rfl
    rw [hpixels, pixelAt, Array.getD_eq_getD_getElem?, Array.getElem?_replicate]
    rfl
  have hzero : (DrawRequest.glyph 0x0 62 30).Covers initialMemory 62 31 :=
    glyph_covers 62 30 (r := 1) (c := 0) (by decide) (by decide) (by decide)
  have hone : (DrawRequest.glyph 0x1 60 31).Covers initialMemory 62 31 :=
    glyph_covers 60 31 (r := 0) (c := 2) (by decide) (by decide) (by decide)
  have hcount : coverCount initialMemory 62 31
      [.glyph 0x0 62 30, .glyph 0x1 60 31, .glyph 0x0 62 30] = 3 := by
    simp [coverCount, hzero, hone]
  have hon := hpixel 62 (by decide) 31 (by decide)
  have hmemory : Machine.standard.state.memory = initialMemory := rfl
  simp only [List.map_cons, List.map_nil] at hon
  rw [hblank, hmemory, hcount] at hon
  exact ⟨s', u, hrun, hrun', hsame, hon⟩

end Chip8
