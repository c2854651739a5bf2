import Chip8.Machine.Config
import Chip8.Proofs.State.Action

/-!
# The machine that has been switched on

Every run starts here. What has to be known about the start is little: the state is valid, the stack
is empty, and above the font memory holds zeros. `ofConfig_ok` says what a machine made from a
user's settings is, so that nothing below has to look at how settings are read.
-/

set_option autoImplicit false

namespace Chip8

namespace State

theorem initialMemory_size : initialMemory.size = memorySize := by
  have hfont : font.size = 80 := rfl
  simp only [initialMemory, Array.size_append, Array.size_replicate, hfont]
  rfl

theorem initial_valid (random : Random.Source) : (initial random).Valid where
  memory_size := initialMemory_size
  registers_size := Array.size_replicate
  stack_size := Array.size_replicate
  keys_size := Array.size_replicate
  pixels_size := Array.size_replicate
  pc_mem := (by decide : (0 : Int) ≤ programStart ∧ (programStart : Int) < memorySize)
  sp_mem := (by decide : (0 : Int) ≤ 0 ∧ (0 : Int) ≤ stackSize)
  index_mem := (by decide : (0 : Int) ≤ 0 ∧ (0 : Int) ≤ 0xFFFF)
  delayTimer_mem := (by decide : (0 : Int) ≤ 0 ∧ (0 : Int) ≤ 0xFF)
  soundTimer_mem := (by decide : (0 : Int) ≤ 0 ∧ (0 : Int) ≤ 0xFF)
  stack_mem := by
    intro a ha
    obtain ⟨-, rfl⟩ := Array.mem_replicate.mp ha
    decide
  cycleCount_nonneg := Int.le_refl 0

/-- Where neither font nor program is, memory is zero. -/
theorem initialMemory_above_font {p : Nat} (h : fontStart + font.size ≤ p) :
    initialMemory.getD p 0 = 0 := by
  have hfont : font.size = 80 := rfl
  have hleft : (Array.replicate fontStart (0 : UInt8) ++ font).size = fontStart + font.size := by
    rw [Array.size_append, Array.size_replicate]
  rw [initialMemory, Array.getD_eq_getD_getElem?, Array.getElem?_append_right (by omega),
    Array.getElem?_replicate]
  by_cases hp : p - (Array.replicate fontStart (0 : UInt8) ++ font).size <
      memorySize - (fontStart + font.size)
  · rw [if_pos hp, Option.getD_some]
  · rw [if_neg hp, Option.getD_none]

/-- The glyphs are where they are looked for. -/
theorem initialMemory_font {r : Nat} (h : r < font.size) :
    initialMemory.getD (fontStart + r) 0 = font.getD r 0 := by
  have hblank : (Array.replicate fontStart (0 : UInt8)).size = fontStart := Array.size_replicate
  have hleft : fontStart + r < (Array.replicate fontStart (0 : UInt8) ++ font).size := by
    rw [Array.size_append, hblank]
    omega
  have hright : (Array.replicate fontStart (0 : UInt8)).size ≤ fontStart + r := by omega
  rw [initialMemory, Array.getD_eq_getD_getElem?, Array.getElem?_append_left hleft,
    Array.getElem?_append_right hright, hblank, Nat.add_sub_cancel_left,
    Array.getD_eq_getD_getElem?]

theorem byte_of_initialMemory {s : State} (hmem : s.memory = initialMemory) {a : Int}
    (ha : 0xA0 ≤ a ∧ a < memorySize) : s.byte a = 0 := by
  have hplace : fontStart + font.size ≤ addressPlace a := by
    have hfont : fontStart + font.size = 0xA0 := rfl
    rw [addressPlace_of_mem (by omega), hfont]
    omega
  rw [byte, hmem, initialMemory_above_font hplace]

end State

namespace Machine

/-- What a machine made from settings is: a new one, with a resolution of a cycle at least and the
limit of the trace that was asked for. -/
theorem ofConfig_eq_new {c : Config} {m : Machine} (h : ofConfig c = .ok m) :
    1 ≤ c.timerResolution ∧ ∃ policy,
      m = .new c.timerResolution policy c.tracing (c.traceLimit.map Int.toNat) c.random := by
  unfold ofConfig at h
  by_cases hres : c.timerResolution < 1
  · rw [if_pos hres] at h
    exact absurd h (by simp)
  · rw [if_neg hres] at h
    refine ⟨by omega, ?_⟩
    cases hpolicy : InvalidPolicy.ofName? c.onInvalid with
    | none =>
      rw [hpolicy] at h
      exact absurd h (by simp)
    | some policy =>
      rw [hpolicy] at h
      dsimp only at h
      by_cases hwide : c.traceLimit.any (!indexFits ·) = true
      · rw [if_pos hwide] at h
        exact absurd h (by simp)
      · rw [if_neg hwide] at h
        by_cases hneg : c.traceLimit.any (· < 0) = true
        · rw [if_pos hneg] at h
          exact absurd h (by simp)
        · rw [if_neg hneg] at h
          injection h with h
          exact ⟨policy, h.symm⟩

theorem ofConfig_ok {c : Config} {m : Machine} (h : ofConfig c = .ok m) :
    1 ≤ c.timerResolution ∧ ∃ policy limit,
      m = .new c.timerResolution policy c.tracing limit c.random := by
  obtain ⟨hres, policy, rfl⟩ := ofConfig_eq_new h
  exact ⟨hres, policy, _, rfl⟩

/-- The machine that one gets by asking for nothing. -/
def standard : Machine :=
  .new defaultTimerResolution .refuse false (some defaultTraceLimit) (.ofBytes #[])

theorem ofConfig_default : ofConfig {} = .ok standard := rfl

theorem standard_valid : standard.state.Valid := State.initial_valid (.ofBytes #[])

end Machine

end Chip8
