import Chip8.Program.Words
import Chip8.Proofs.Machine.Program

/-!
# Words, packed and fetched again

A list of words is packed into an image, the image is loaded, and the machine fetches the words
where they have been put. Four things have to agree on that way: how a word is cut into bytes, where
the bytes go, how two bytes are read, and how they are cut into nibbles.

> **The word that is fetched is the word that was packed** (`Program.words_round_trip`),

for every list that fits memory, up to the last word that does. A list that does not fit is not
loaded at all, and one with a number that is no word is not packed; the first such number is
reported.
-/

set_option autoImplicit false

namespace Chip8

open State Outcome

namespace Program

/-! ## Packing -/

/-- The number has sixteen bits. -/
def IsWord (w : Int) : Prop := 0 ≤ w ∧ w ≤ 0xFFFF

instance (w : Int) : Decidable (IsWord w) := inferInstanceAs (Decidable (0 ≤ w ∧ w ≤ 0xFFFF))

/-- The higher byte of a word, and the lower one. -/
def bytesOf (w : Int) : List UInt8 := [UInt8.ofNat (w / 256).toNat, UInt8.ofNat (w % 256).toNat]

/-- The bytes of some words in order. -/
def image (ws : List Int) : List UInt8 := ws.flatMap bytesOf

theorem wordBytes_eq (w : Int) :
    wordBytes w = if IsWord w then .ok (bytesOf w) else .error (.wordOutOfRange w) := rfl

theorem ofWords_cons (w : Int) (ws : List Int) : ofWords (w :: ws) =
    match wordBytes w with
      | .ok bytes => (ofWords ws).map (bytes ++ ·)
      | .error e => .error e := by
  rw [ofWords, List.mapM_cons, ofWords]
  cases wordBytes w with
  | error e => rfl
  | ok bytes =>
    cases ws.mapM wordBytes with
    | error e => rfl
    | ok rest => rfl

/-- Packing ends at the first number that is no word, or packs all of them. -/
theorem ofWords_eq (ws : List Int) : ofWords ws =
    match ws.find? (¬ IsWord ·) with
      | some w => .error (.wordOutOfRange w)
      | none => .ok (image ws) := by
  induction ws with
  | nil => rfl
  | cons w ws ih =>
    rw [ofWords_cons, wordBytes_eq, ih]
    by_cases hw : IsWord w
    · rw [if_pos hw, List.find?_cons_of_neg (by simpa using hw)]
      cases ws.find? (¬ IsWord ·) with
      | none => rfl
      | some v => rfl
    · rw [if_neg hw, List.find?_cons_of_pos (by simpa using hw)]

theorem ofWords_eq_error_iff {ws : List Int} {e : SourceError} : ofWords ws = .error e ↔
    ∃ before w after, ws = before ++ w :: after ∧ (∀ v ∈ before, IsWord v) ∧ ¬ IsWord w ∧
      e = .wordOutOfRange w := by
  rw [ofWords_eq]
  constructor
  · intro h
    cases hfind : ws.find? (¬ IsWord ·) with
    | none =>
      rw [hfind] at h
      cases h
    | some w =>
      rw [hfind] at h
      cases h
      obtain ⟨hw, before, after, hws, hbefore⟩ := List.find?_eq_some_iff_append.mp hfind
      exact ⟨before, w, after, hws, by simpa using hbefore, by simpa using hw, rfl⟩
  · rintro ⟨before, w, after, hws, hbefore, hw, rfl⟩
    have hfind : ws.find? (¬ IsWord ·) = some w :=
      List.find?_eq_some_iff_append.mpr
        ⟨by simpa using hw, before, after, hws, by simpa using hbefore⟩
    rw [hfind]

theorem ofWords_of_isWord {ws : List Int} (h : ∀ w ∈ ws, IsWord w) :
    ofWords ws = .ok (image ws) := by
  have hfind : ws.find? (¬ IsWord ·) = none :=
    List.find?_eq_none.mpr fun w hw => by simpa using h w hw
  rw [ofWords_eq, hfind]

/-! ## Places in the image -/

theorem length_image (ws : List Int) : (image ws).length = 2 * ws.length := by
  induction ws with
  | nil => rfl
  | cons w ws ih =>
    have hcons : (image (w :: ws)).length = (image ws).length + 2 := rfl
    rw [hcons, ih, List.length_cons]
    omega

theorem image_getElem? (ws : List Int) : ∀ i : Nat,
    (image ws)[2 * i]? = ws[i]?.map (fun w => UInt8.ofNat (w / 256).toNat) ∧
      (image ws)[2 * i + 1]? = ws[i]?.map (fun w => UInt8.ofNat (w % 256).toNat) := by
  induction ws with
  | nil =>
    intro i
    exact ⟨rfl, rfl⟩
  | cons w ws ih =>
    intro i
    cases i with
    | zero => exact ⟨rfl, rfl⟩
    | succ i => exact ih i

theorem image_word {ws : List Int} {i : Nat} (hi : i < ws.length) (hw : IsWord ws[i])
    (hhigh : 2 * i < (image ws).length) (hlow : 2 * i + 1 < (image ws).length) :
    ((256 * (image ws)[2 * i].toNat + (image ws)[2 * i + 1].toNat : Nat) : Int) = ws[i] := by
  obtain ⟨hfirst, hsecond⟩ := image_getElem? ws i
  rw [List.getElem?_eq_getElem hi, Option.map_some, List.getElem?_eq_getElem hhigh,
    Option.some_inj] at hfirst
  rw [List.getElem?_eq_getElem hi, Option.map_some, List.getElem?_eq_getElem hlow,
    Option.some_inj] at hsecond
  obtain ⟨hnonneg, hle⟩ := hw
  rw [hfirst, hsecond, UInt8.toNat_ofNat', UInt8.toNat_ofNat']
  omega

end Program

/-! ## Fetching -/

theorem State.fetch_image {s t : State} {ws : List Int} {i : Nat}
    (hs : s.memory.size = memorySize) (hwords : ∀ w ∈ ws, Program.IsWord w)
    (hroom : ws.length ≤ 1792) (hi : i < ws.length) (ht : t.Valid)
    (hmem : t.memory = (s.loaded (Program.image ws).toArray).memory)
    (hpc : t.pc = 0x200 + 2 * i) :
    fetch t = .ok (.ofWord ws[i]) t ∧ ((Opcode.ofWord ws[i]).word : Int) = ws[i] := by
  have hsize : (Program.image ws).toArray.size = 2 * ws.length := Program.length_image ws
  have hfits : (Program.image ws).toArray.size ≤ maxProgramSize := by
    rw [hsize, maxProgramSize, memorySize, programStart]
    omega
  have hplace : t.pc = (programStart + 2 * i : Nat) := by
    rw [hpc, programStart]
    omega
  have hword : (t.word : Int) = ws[i] := by
    rw [word_loaded _ (2 * i) hs hfits (by omega) hmem hplace]
    exact Program.image_word hi (hwords _ (List.getElem_mem hi)) _ _
  have hfetch : fetch t = .ok t.opcode t := by
    refine fetch_of_room ht ?_
    rw [hpc, memorySize]
    omega
  -- cutting the two bytes into nibbles and cutting the word come to the same opcode
  have hopcode : t.opcode = .ofWord ws[i] := by rw [opcode, hword]
  rw [← hopcode, opcode_word]
  exact ⟨hfetch, hword⟩

/-! ## The whole way -/

namespace Program

/-- Memory in which the words stand in order from the start of program memory on, each to be fetched
from its own place, and which is otherwise the memory of the state. -/
structure Placed (ws : List Int) (s : State) (memory : Array UInt8) : Prop where
  size : memory.size = 4096
  outside : ∀ p : Nat, p < 0x200 ∨ 0x200 + 2 * ws.length ≤ p → memory[p]? = s.memory[p]?
  fetched : ∀ i (hi : i < ws.length),
    let t : State := { s with memory := memory, pc := 0x200 + 2 * i }
    ∃ o, State.fetch t = .ok o t ∧ (o.word : Int) = ws[i] ∧
      Decoded.ofOpcode o = Decoded.ofOpcode (.ofWord ws[i])

theorem placed_loaded {s : State} (hs : s.Valid) {ws : List Int} (hwords : ∀ w ∈ ws, IsWord w)
    (hroom : ws.length ≤ 1792) : Placed ws s (s.loaded (image ws).toArray).memory := by
  have hsize : (image ws).toArray.size = 2 * ws.length := length_image ws
  have hmemory : (s.loaded (image ws).toArray).memory.size = memorySize := by
    refine loaded_memory_size hs.memory_size ?_
    rw [hsize, maxProgramSize, memorySize, programStart]
    omega
  refine { size := hmemory, outside := fun p hp => ?_, fetched := fun i hi => ?_ }
  · exact loaded_memory_outside hs.memory_size _ (by rwa [hsize])
  · intro t
    have hpc : 0 ≤ t.pc ∧ t.pc < memorySize := by
      rw [show t.pc = 0x200 + 2 * i from rfl, memorySize]
      omega
    have ht : t.Valid := { hs with memory_size := hmemory, pc_mem := hpc }
    obtain ⟨hfetch, hword⟩ := State.fetch_image hs.memory_size hwords hroom hi ht rfl rfl
    exact ⟨_, hfetch, hword, rfl⟩

/-- **The word that is fetched is the word that was packed.** Packing fails exactly on a list with
a number that is no word, and then names the first. The image of any other list is loaded whole,
and every word of it can be fetched where it stands; or it is too large, and nothing is loaded. -/
theorem words_round_trip (ws : List Int) :
    (∀ e, ofWords ws = .error e ↔
      ∃ before w after, ws = before ++ w :: after ∧ (∀ v ∈ before, IsWord v) ∧ ¬ IsWord w ∧
        e = .wordOutOfRange w) ∧
    ((∀ w ∈ ws, IsWord w) → ∃ bytes : List UInt8,
      ofWords ws = .ok bytes ∧ bytes.length = 2 * ws.length ∧
      ∀ m : Machine, m.state.Valid →
        (ws.length ≤ 1792 → ∃ memory : Array UInt8, Placed ws m.state memory ∧
          Machine.load bytes.toArray m =
            .ok (2 * ws.length) { m with state := { m.state with memory := memory } }) ∧
        (1792 < ws.length →
          Machine.load bytes.toArray m =
            .error (.fault (.programTooLarge (2 * ws.length) 3584)) m)) := by
  refine ⟨fun e => ofWords_eq_error_iff, fun hwords => ?_⟩
  refine ⟨image ws, ofWords_of_isWord hwords, length_image ws, fun m hv => ?_⟩
  have hsize : (image ws).toArray.size = 2 * ws.length := length_image ws
  -- memory ends at an even address, so the last word that fits fills it
  have hmax : maxProgramSize = 2 * 1792 := rfl
  constructor
  · intro hroom
    refine ⟨_, placed_loaded hv hwords hroom, ?_⟩
    rw [Machine.load, Machine.onState, load_of_room m.state (by omega), hsize]
    rfl
  · intro hcrowded
    rw [Machine.load, Machine.onState, load_of_no_room m.state (by omega), hsize]
    rfl

/-- The longest program that fits is fetched to its last word, which ends at the end of memory. -/
theorem words_round_trip_full : ∃ (bytes : List UInt8) (memory : Array UInt8),
    ofWords (List.replicate 1792 0x1FFE) = .ok bytes ∧
    Machine.load bytes.toArray Machine.standard =
      .ok 3584 { Machine.standard with
        state := { Machine.standard.state with memory := memory } } ∧
    let s : State := { Machine.standard.state with memory := memory, pc := 0xFFE }
    ∃ o, State.fetch s = .ok o s ∧ o.word = 0x1FFE := by
  have hlength : (List.replicate 1792 (0x1FFE : Int)).length = 1792 := List.length_replicate
  have hwords : ∀ w ∈ List.replicate 1792 (0x1FFE : Int), IsWord w := by
    intro w hw
    rw [List.eq_of_mem_replicate hw]
    decide
  obtain ⟨-, htrip⟩ := words_round_trip (List.replicate 1792 0x1FFE)
  obtain ⟨bytes, hbytes, -, hload⟩ := htrip hwords
  obtain ⟨hroom, -⟩ := hload Machine.standard Machine.standard_valid
  obtain ⟨memory, hplaced, hok⟩ := hroom (Nat.le_of_eq hlength)
  obtain ⟨o, hfetch, hword, -⟩ := hplaced.fetched 1791 (by omega)
  rw [hlength] at hok
  rw [List.getElem_replicate] at hword
  exact ⟨bytes, memory, hbytes, hok, o, hfetch, by omega⟩

end Program

end Chip8
