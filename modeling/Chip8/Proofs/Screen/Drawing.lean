import Chip8.Proofs.Instruction.Footprint

/-!
# What a drawing changes

A sprite is at most fifteen rows of eight pixels and the screen is larger than that, so that however
the picture wraps round, no two pixels of a sprite fall on the same place (`Sprite.cells_nodup`). A
drawing therefore flips each of its places once and can be read pixel by pixel
(`Drawing.flipAll_pixel`); in particular it leaves the screen as it was only if there was nothing to
draw.

This is why the mark for a changed screen is exact. A drawing sets it for any pixel flipped, even if
a later flip were to undo it, and an erasure for any pixel that was on; both come to the same as
comparing the screen with the one before (`Instruction.redraw_iff`).
-/

set_option autoImplicit false

namespace Chip8

open State

/-! ## The places of a sprite -/

namespace Sprite

theorem place_lt (x y : Nat) : place x y < pixelCount := by
  have hcount : pixelCount = 64 * 32 := rfl
  unfold place screenWidth screenHeight
  omega

theorem place_inj {x y x' y' : Nat} : place x y = place x' y' ↔
    x % screenWidth = x' % screenWidth ∧ y % screenHeight = y' % screenHeight := by
  unfold place screenWidth screenHeight
  omega

theorem mem_rowCells {row : UInt8} {x y p : Nat} :
    p ∈ rowCells row x y ↔ ∃ c, c < 8 ∧ bit row c = true ∧ place (x + c) y = p := by
  simp [rowCells, and_assoc]

theorem mem_cells {rows : List UInt8} {x y p : Nat} :
    p ∈ cells rows x y ↔ ∃ row r, (row, r) ∈ rows.zipIdx ∧ p ∈ rowCells row x (y + r) := by
  simp [cells]

theorem cells_lt {rows : List UInt8} {x y p : Nat} (h : p ∈ cells rows x y) : p < pixelCount := by
  obtain ⟨row, r, -, hp⟩ := mem_cells.mp h
  obtain ⟨c, -, -, rfl⟩ := mem_rowCells.mp hp
  exact place_lt _ _

theorem rowCells_nodup (row : UInt8) (x y : Nat) : (rowCells row x y).Nodup := by
  have hcolumns : ((List.range 8).filter (bit row)).Nodup := List.nodup_range.filter _
  refine List.pairwise_map.mpr (List.Pairwise.imp_of_mem ?_ hcolumns)
  intro c c' hc hc' hne heq
  have hcolumn := List.mem_range.mp (List.mem_filter.mp hc).1
  have hcolumn' := List.mem_range.mp (List.mem_filter.mp hc').1
  have hx := (place_inj.mp heq).1
  simp only [screenWidth] at hx
  omega

/-- No two pixels of a sprite fall on the same place. -/
theorem cells_nodup {rows : List UInt8} (h : rows.length ≤ screenHeight) {x y : Nat} :
    (cells rows x y).Nodup := by
  have hrows : rows.zipIdx.Pairwise fun a b => a.2 < b.2 := by
    have hlt := List.pairwise_lt_range' (s := 0) (n := rows.length)
    rw [← List.zipIdx_map_snd, List.pairwise_map] at hlt
    exact hlt
  refine List.pairwise_flatMap.mpr ⟨?_, List.Pairwise.imp_of_mem ?_ hrows⟩
  · intro (row, r) _
    exact rowCells_nodup row x (y + r)
  · intro (row, r) (row', r') hr hr' hlt p hp p' hp' heq
    obtain ⟨c, -, -, rfl⟩ := mem_rowCells.mp hp
    obtain ⟨c', -, -, rfl⟩ := mem_rowCells.mp hp'
    have hy := (place_inj.mp heq).2
    have hbound := List.snd_lt_of_mem_zipIdx hr'
    simp only [screenHeight] at hy h
    dsimp only at hlt hbound
    omega

end Sprite

/-! ## Flipping -/

namespace Drawing

theorem flipAll_cons (d : Drawing) (p : Nat) (ps : List Nat) :
    d.flipAll (p :: ps) = (d.flip p).flipAll ps := rfl

theorem flipAll_changed (ps : List Nat) :
    ∀ d : Drawing, (d.flipAll ps).changed = true ↔ d.changed = true ∨ ps ≠ [] := by
  induction ps with
  | nil => intro d; simp [flipAll]
  | cons p ps ih =>
    intro d
    rw [flipAll_cons, ih]
    simp [flip]

/-- Each place is flipped once, so what is turned off was on before the first flip. -/
theorem flipAll_collision {ps : List Nat} (hps : ps.Nodup) : ∀ d : Drawing,
    (d.flipAll ps).collision = true ↔
      d.collision = true ∨ ∃ p ∈ ps, d.pixels.getD p false = true := by
  induction ps with
  | nil => intro d; simp [flipAll]
  | cons p ps ih =>
    intro d
    obtain ⟨hp, hrest⟩ := List.nodup_cons.mp hps
    have hothers : ∀ q ∈ ps, (d.flip p).pixels.getD q false = d.pixels.getD q false := by
      intro q hq
      have hne : p ≠ q := fun heq => hp (heq ▸ hq)
      simp [flip, Array.getD_eq_getD_getElem?, Array.getElem?_modify, hne]
    have hfirst : (d.flip p).collision = true ↔
        d.collision = true ∨ d.pixels.getD p false = true := by
      simp only [flip, Bool.or_eq_true]
    have hlater : (∃ q ∈ ps, (d.flip p).pixels.getD q false = true) ↔
        ∃ q ∈ ps, d.pixels.getD q false = true :=
      exists_congr fun q => and_congr_right fun hq => by rw [hothers q hq]
    rw [flipAll_cons, ih hrest, hfirst, hlater]
    simp only [List.mem_cons, exists_eq_or_imp, or_assoc]

/-- Each place is flipped once, so the new screen is the old one with just those places flipped. -/
theorem flipAll_pixel {ps : List Nat} (hps : ps.Nodup) (q : Nat) : ∀ d : Drawing,
    (d.flipAll ps).pixels[q]? = if q ∈ ps then d.pixels[q]?.map not else d.pixels[q]? := by
  induction ps with
  | nil => intro d; simp [flipAll]
  | cons p ps ih =>
    intro d
    obtain ⟨hp, hrest⟩ := List.nodup_cons.mp hps
    have hflip : (d.flip p).pixels[q]? = if p = q then d.pixels[q]?.map not else d.pixels[q]? :=
      Array.getElem?_modify
    rw [flipAll_cons, ih hrest, hflip]
    by_cases hq : p = q
    · subst hq
      simp [hp]
    · have hq' : q ≠ p := fun heq => hq heq.symm
      simp [hq, hq']

theorem flipAll_pixels_eq_iff {d : Drawing} {ps : List Nat} (hps : ps.Nodup)
    (hmem : ∀ p ∈ ps, p < d.pixels.size) : (d.flipAll ps).pixels = d.pixels ↔ ps = [] := by
  constructor
  · intro heq
    cases ps with
    | nil => rfl
    | cons p ps =>
      have hp := hmem p List.mem_cons_self
      have hpixel := flipAll_pixel hps p d
      rw [heq, if_pos List.mem_cons_self, Array.getElem?_eq_getElem hp] at hpixel
      simp at hpixel
  · rintro rfl
    rfl

end Drawing

/-! ## The mark -/

theorem State.spriteAt_length (s : State) (a : Int) (n : Nat) : (s.spriteAt a n).length = n := by
  simp [spriteAt]

/-- A drawing counts as a change just if the screen is another one after it. -/
theorem State.drawing_changed {s : State} (hs : s.pixels.size = pixelCount) {x y n : Nat}
    (hn : n ≤ screenHeight) :
    (s.drawing x y n).changed = true ↔ (s.drawing x y n).pixels ≠ s.pixels := by
  have hrows : (s.spriteAt s.index n).length ≤ screenHeight := by
    rw [spriteAt_length]
    exact hn
  have hmem : ∀ p ∈ Sprite.cells (s.spriteAt s.index n) (s.reg x).toNat (s.reg y).toNat,
      p < (Drawing.start s.pixels).pixels.size := by
    intro p hp
    exact Nat.lt_of_lt_of_eq (Sprite.cells_lt hp) hs.symm
  have hpixels := Drawing.flipAll_pixels_eq_iff (Sprite.cells_nodup hrows) hmem
  rw [drawing, Drawing.flipAll_changed]
  simp only [Drawing.start] at hpixels ⊢
  simp [hpixels]

theorem State.clearScreen_redraw_iff (s : State) :
    s.clearScreen.redraw = true ↔ s.redraw = true ∨ s.clearScreen.pixels ≠ s.pixels := by
  unfold clearScreen
  by_cases hany : s.pixels.any id = true
  · have hne : Array.replicate s.pixels.size false ≠ s.pixels := by
      intro heq
      rw [← heq, Array.any_replicate] at hany
      simp at hany
    rw [if_pos hany]
    simp [hne]
  · rw [if_neg hany]
    simp

/-- Only two instructions reach the screen. -/
theorem Instruction.footprint_screen (i : Instruction) (s : State) :
    i = .clear ∨ (∃ x y n, i = .draw x y n) ∨ (i.footprint s).screen = false := by
  cases i with
  | clear => exact Or.inl rfl
  | draw x y n => exact Or.inr (Or.inl ⟨x, y, n, rfl⟩)
  | ret => exact Or.inr (Or.inr rfl)
  | address op addr => cases op <;> exact Or.inr (Or.inr rfl)
  | immediate op x value => cases op <;> exact Or.inr (Or.inr rfl)
  | pair op x y => cases op <;> exact Or.inr (Or.inr rfl)
  | register op x =>
    refine Or.inr (Or.inr ?_)
    cases op with
    | waitKey =>
      simp only [footprint, RegisterOp.footprint]
      split <;> rfl
    | _ => rfl

/-- **The mark is exact.** After an instruction it is set if it was set before, or if the screen is
another one now. -/
theorem Instruction.redraw_iff {s : State} (hs : s.Valid) (i : Instruction) :
    (i.write s).redraw = true ↔ s.redraw = true ∨ (i.write s).pixels ≠ s.pixels := by
  rcases i.footprint_screen s with rfl | ⟨x, y, n, rfl⟩ | hscreen
  · exact s.clearScreen_redraw_iff
  · have hn : n.val ≤ screenHeight := by
      simp only [screenHeight]
      omega
    have hchanged := drawing_changed hs.pixels_size (x := x) (y := y) hn
    simp [write, writeDrawing, flagged, setReg, hchanged]
  · have hcovers := i.write_covers s
    have hpixels := hcovers.pixels hscreen
    rcases hcovers.redraw with hredraw | ⟨hon, -⟩
    · simp [hpixels, hredraw]
    · rw [hscreen] at hon
      cases hon

end Chip8
