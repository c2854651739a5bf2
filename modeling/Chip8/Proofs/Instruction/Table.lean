import Chip8.Instruction.Mnemonic
import Chip8.Operation.Table
import Chip8.Proofs.Machine.Cycle

/-!
# The instruction table

The instruction set as it is documented: thirty-four lines, each with the words it stands for and
the key of its operation. `X` and `Y` in a line are registers, and one, two or three `N` at its end
are a number. Nothing here is put in the terms of the decoder. A line is read as arithmetic on a
word: which words match it, what its operands are then, and which word some operands make of it.

> **The decoder accepts exactly the words of the table, and loses nothing of them**
> (`Decoded.table_exact`).

The way there goes over the shapes of operations. To each operation belongs a line
(`Operation.encoding?`), and these lines are the table; that is a comparison of two finite lists.
That a line says of its operation what `encode` says is then shown once for each shape.
-/

set_option autoImplicit false

namespace Chip8

/-- How the words of a line are written. -/
inductive Encoding
  | bare (word : Nat)
  /-- `gNNN` -/
  | nnn (g : Nat)
  /-- `gXNN` -/
  | xnn (g : Nat)
  /-- `gXYk` -/
  | xy (g k : Nat)
  /-- `gXYN` -/
  | xyn (g : Nat)
  /-- `gXkk` -/
  | x (g kk : Nat)
deriving DecidableEq

structure Form where
  encoding : Encoding
  key : String
deriving DecidableEq

def instructionTable : List Form := [
  ⟨.bare 0x00E0, "OP_CLS"⟩,
  ⟨.bare 0x00EE, "OP_RET"⟩,
  ⟨.nnn 0x1, "OP_JP"⟩,
  ⟨.nnn 0x2, "OP_CALL"⟩,
  ⟨.xnn 0x3, "OP_SE_IMM"⟩,
  ⟨.xnn 0x4, "OP_SNE_IMM"⟩,
  ⟨.xy 0x5 0x0, "OP_SE_REG"⟩,
  ⟨.xnn 0x6, "OP_LD_IMM"⟩,
  ⟨.xnn 0x7, "OP_ADD_IMM"⟩,
  ⟨.xy 0x8 0x0, "OP_LD_REG"⟩,
  ⟨.xy 0x8 0x1, "OP_OR"⟩,
  ⟨.xy 0x8 0x2, "OP_AND"⟩,
  ⟨.xy 0x8 0x3, "OP_XOR"⟩,
  ⟨.xy 0x8 0x4, "OP_ADD_REG"⟩,
  ⟨.xy 0x8 0x5, "OP_SUB"⟩,
  ⟨.xy 0x8 0x6, "OP_SHR"⟩,
  ⟨.xy 0x8 0x7, "OP_SUBN"⟩,
  ⟨.xy 0x8 0xE, "OP_SHL"⟩,
  ⟨.xy 0x9 0x0, "OP_SNE_REG"⟩,
  ⟨.nnn 0xA, "OP_LD_I"⟩,
  ⟨.nnn 0xB, "OP_JP_V0"⟩,
  ⟨.xnn 0xC, "OP_RND"⟩,
  ⟨.xyn 0xD, "OP_DRW"⟩,
  ⟨.x 0xE 0x9E, "OP_SKP"⟩,
  ⟨.x 0xE 0xA1, "OP_SKNP"⟩,
  ⟨.x 0xF 0x07, "OP_LD_VX_DT"⟩,
  ⟨.x 0xF 0x0A, "OP_LD_VX_K"⟩,
  ⟨.x 0xF 0x15, "OP_LD_DT_VX"⟩,
  ⟨.x 0xF 0x18, "OP_LD_ST_VX"⟩,
  ⟨.x 0xF 0x1E, "OP_ADD_I_VX"⟩,
  ⟨.x 0xF 0x29, "OP_LD_F_VX"⟩,
  ⟨.x 0xF 0x33, "OP_LD_B_VX"⟩,
  ⟨.x 0xF 0x55, "OP_LD_MEM_VX"⟩,
  ⟨.x 0xF 0x65, "OP_LD_VX_MEM"⟩]

example : instructionTable.length = 34 := rfl

namespace Encoding

/-- The word is one of those that are written so. -/
def Matches : Encoding → Nat → Prop
  | .bare word, u => u = word
  | .nnn g, u | .xnn g, u | .xyn g, u => u / 0x1000 = g
  | .xy g k, u => u / 0x1000 = g ∧ u % 0x10 = k
  | .x g kk, u => u / 0x1000 = g ∧ u % 0x100 = kk

instance (e : Encoding) (u : Nat) : Decidable (e.Matches u) :=
  match e with
  | .bare word => inferInstanceAs (Decidable (u = word))
  | .nnn g | .xnn g | .xyn g => inferInstanceAs (Decidable (u / 0x1000 = g))
  | .xy g k => inferInstanceAs (Decidable (u / 0x1000 = g ∧ u % 0x10 = k))
  | .x g kk => inferInstanceAs (Decidable (u / 0x1000 = g ∧ u % 0x100 = kk))

def operands : Encoding → Nat → Operands
  | .bare _, _ => {}
  | .nnn _, u => { addr := some (u % 0x1000 : Nat) }
  | .xnn _, u => { x := some (u / 0x100 % 0x10 : Nat), value := some (u % 0x100 : Nat) }
  | .xy _ _, u => { x := some (u / 0x100 % 0x10 : Nat), y := some (u / 0x10 % 0x10 : Nat) }
  | .xyn _, u =>
    { x := some (u / 0x100 % 0x10 : Nat), y := some (u / 0x10 % 0x10 : Nat)
      n := some (u % 0x10 : Nat) }
  | .x _ _, u => { x := some (u / 0x100 % 0x10 : Nat) }

/-- The word that is written so with some operands, if those that it takes are there. -/
def word? : Encoding → Operands → Option Int
  | .bare word, _ => some word
  | .nnn g, a => do return 0x1000 * g + (← a.addr)
  | .xnn g, a => do return 0x1000 * g + 0x100 * (← a.x) + (← a.value)
  | .xy g k, a => do return 0x1000 * g + 0x100 * (← a.x) + 0x10 * (← a.y) + k
  | .xyn g, a => do return 0x1000 * g + 0x100 * (← a.x) + 0x10 * (← a.y) + (← a.n)
  | .x g kk, a => do return 0x1000 * g + 0x100 * (← a.x) + kk

end Encoding

/-- The word that the table has for a key with some operands. -/
def encode? (key : String) (a : Operands) : Option Int :=
  (instructionTable.find? (·.key == key)).bind (·.encoding.word? a)

def Operand.limit : Operand → Int
  | .x | .y | .n => 0xF
  | .value => 0xFF
  | .addr => 0xFFF

def Operands.InRange (a : Operands) : Prop :=
  ∀ (p : Operand) (v : Int), a.get? p = some v → 0 ≤ v ∧ v ≤ p.limit

/-! ## The line of an operation -/

/-- How the words of an operation are written; those that are no instruction are not. -/
def Operation.encoding? : Operation → Option Encoding
  | .clear => some (.bare 0x00E0)
  | .ret => some (.bare 0x00EE)
  | .address op => some (.nnn op.group.val)
  | .immediate op => some (.xnn op.group.val)
  | .pair op => some (.xy op.group.val op.selector.val)
  | .draw => some (.xyn 0xD)
  | .register op => some (.x op.group.val op.selector.val)
  | .invalid => none

theorem Operation.mem_all (op : Operation) : op ∈ Operation.all := by
  cases op with
  | clear | ret | draw | invalid => decide
  | address op => cases op <;> decide
  | immediate op => cases op <;> decide
  | pair op => cases op <;> decide
  | register op => cases op <;> decide

theorem Operation.ofKey?_key : ∀ op ∈ Operation.all, ofKey? op.key = some op := by
  decide +kernel

/-- A key of the machine stands for its operation in every table. -/
theorem OperationTable.execute_key (t : OperationTable) (op : Operation) (args : Operands) :
    t.execute op.key args = op.execute args := by
  rw [execute, Operation.ofKey?_key op (Operation.mem_all op)]

/-- An instruction asked for by key comes to its effect or to its fault, in every table. -/
theorem OperationTable.execute_instruction (t : OperationTable) {s : State} (hs : s.Valid)
    (i : Instruction) :
    t.execute i.operation.key i.operands s = Outcome.settled (i.fault? s) s () (i.effect s) := by
  rw [t.execute_key, Instruction.execute_eq hs]

theorem Operation.form_mem : ∀ op ∈ Operation.all, ∀ e ∈ op.encoding?,
    ⟨e, op.key⟩ ∈ instructionTable := by
  decide +kernel

theorem exists_operation : ∀ f ∈ instructionTable,
    ∃ op ∈ Operation.all, op.encoding? = some f.encoding ∧ op.key = f.key := by
  decide +kernel

/-- No key stands in two lines. -/
theorem find?_key : ∀ f ∈ instructionTable, instructionTable.find? (·.key == f.key) = some f := by
  decide +kernel

/-- A word that a line stands for is the code of an instruction: the line settles the group and the
selector, if the shape has one, and the operands are those in the word. -/
theorem Operation.exists_encode {op : Operation} {e : Encoding} (h : op.encoding? = some e)
    {o : Opcode} (hm : e.Matches o.word) : ∃ i : Instruction, i.operation = op ∧ o = i.encode := by
  obtain ⟨hgroup, -, -, hthird⟩ := digits_of_nibbles (rfl : o.word = _)
  obtain ⟨-, -, hlow⟩ := digits_of_immediate (congrArg Opcode.word o.ofImmediate_immediate.symm)
  cases op with
  | clear =>
    cases h
    exact ⟨.clear, rfl, Opcode.word_inj.mp hm⟩
  | ret =>
    cases h
    exact ⟨.ret, rfl, Opcode.word_inj.mp hm⟩
  | address op =>
    cases h
    have hg : o.group = op.group := Fin.ext (hgroup.symm.trans hm)
    exact ⟨.address op o.address, rfl, (Opcode.encode_address hg).symm⟩
  | immediate op =>
    cases h
    have hg : o.group = op.group := Fin.ext (hgroup.symm.trans hm)
    exact ⟨.immediate op o.first o.immediate, rfl, (Opcode.encode_immediate hg).symm⟩
  | pair op =>
    cases h
    have hg : o.group = op.group := Fin.ext (hgroup.symm.trans hm.1)
    have hs : o.third = op.selector := Fin.ext (hthird.symm.trans hm.2)
    exact ⟨.pair op o.first o.second, rfl, (Opcode.encode_pair hg hs).symm⟩
  | draw =>
    cases h
    have hg : o.group = 0xD := Fin.ext (hgroup.symm.trans hm)
    refine ⟨.draw o.first o.second o.third, rfl, ?_⟩
    rw [Instruction.encode, ← hg]
  | register op =>
    cases h
    have hg : o.group = op.group := Fin.ext (hgroup.symm.trans hm.1)
    have hs : o.immediate = op.selector := Fin.ext (hlow.symm.trans hm.2)
    exact ⟨.register op o.first, rfl, (Opcode.encode_register hg hs).symm⟩
  | invalid => cases h

/-- The line agrees with the code of the instruction: the word is written so, its operands are those
of the instruction, and they make the word again. -/
structure Encoding.Describes (e : Encoding) (i : Instruction) : Prop where
  matches_word : e.Matches i.encode.word
  operands_eq : e.operands i.encode.word = i.operands
  word?_eq : e.word? i.operands = some (i.encode.word : Int)

theorem Instruction.described (i : Instruction) {e : Encoding}
    (h : i.operation.encoding? = some e) : e.Describes i := by
  cases i with
  | clear | ret =>
    cases h
    exact ⟨rfl, rfl, rfl⟩
  | address op addr =>
    cases h
    obtain ⟨hg, haddr⟩ := digits_of_address (rfl : (address op addr).encode.word = _)
    refine ⟨hg, ?_, congrArg some ?_⟩
    · rw [Encoding.operands, haddr, operands]
    · omega
  | immediate op x value =>
    cases h
    obtain ⟨hg, hx, hvalue⟩ := digits_of_immediate (rfl : (immediate op x value).encode.word = _)
    refine ⟨hg, ?_, congrArg some ?_⟩
    · rw [Encoding.operands, hx, hvalue, operands]
    · omega
  | pair op x y =>
    cases h
    obtain ⟨hg, hx, hy, hn⟩ := digits_of_nibbles (rfl : (pair op x y).encode.word = _)
    refine ⟨⟨hg, hn⟩, ?_, congrArg some ?_⟩
    · rw [Encoding.operands, hx, hy, operands]
    · omega
  | draw x y n =>
    cases h
    obtain ⟨hg, hx, hy, hn⟩ := digits_of_nibbles (rfl : (draw x y n).encode.word = _)
    refine ⟨hg, ?_, congrArg some ?_⟩
    · rw [Encoding.operands, hx, hy, hn, operands]
    · have hgroup : (draw x y n).encode.word / 0x1000 = 0xD := hg
      omega
  | register op x =>
    cases h
    obtain ⟨hg, hx, hselector⟩ := digits_of_immediate (rfl : (register op x).encode.word = _)
    refine ⟨⟨hg, hselector⟩, ?_, congrArg some ?_⟩
    · rw [Encoding.operands, hx, operands]
    · omega

theorem Instruction.operands_inRange (i : Instruction) : i.operands.InRange := by
  intro p v hv
  -- an operand that the instruction lacks is no number, and any other is one of its own
  cases i <;> cases p <;> simp only [operands, Operands.get?, Option.some_inj, reduceCtorEq] at hv
  all_goals
    rw [← hv, Operand.limit]
    omega

theorem InvalidReason.text_ne_empty (r : InvalidReason) : r.text ≠ "" := by
  have hprefix : ∀ {p t : String}, p ≠ "" → p ++ t ≠ "" := by
    intro p t hp h
    exact hp (String.append_eq_empty_iff.mp h).1
  cases r with
  | machineRoutine => exact (by decide : "machine code routines (SYS) are not supported" ≠ "")
  | lowNibble n => exact hprefix (by decide)
  | registerOperation n => exact hprefix (by decide)
  | keyOperation s => exact hprefix (by decide)
  | miscOperation s => exact hprefix (by decide)

/-! ## Words of any size -/

/-- The word that a number has in its low sixteen bits, in two's complement. -/
def lowWord (w : Int) : Nat := (w % 0x10000).toNat

namespace Opcode

theorem word_ofWord (w : Int) : (ofWord w).word = lowWord w := by
  obtain ⟨high, hhigh⟩ := Int.eq_ofNat_of_zero_le (show 0 ≤ w / 256 % 256 by omega)
  obtain ⟨low, hlow⟩ := Int.eq_ofNat_of_zero_le (show 0 ≤ w % 256 by omega)
  rw [ofWord, hhigh, hlow, State.ofBytes_word (by omega) (by omega), lowWord]
  omega

theorem ofWord_lowWord (w : Int) : ofWord (lowWord w) = ofWord w := by
  rw [← word_inj, word_ofWord, word_ofWord, lowWord, lowWord]
  omega

end Opcode

/-! ## The decoder -/

namespace Decoded

def ofWord (w : Int) : Decoded := ofOpcode (.ofWord w)

theorem ofOpcode_encode (i : Instruction) :
    ofOpcode i.encode = ⟨i.operation, i.operands, none⟩ := by
  rw [ofOpcode, Opcode.decode_encode]

theorem of_form {f : Form} (hf : f ∈ instructionTable) {o : Opcode}
    (hm : f.encoding.Matches o.word) :
    ∃ i : Instruction, o = i.encode ∧ i.operation.key = f.key ∧ f.encoding.Describes i := by
  obtain ⟨op, -, hencoding, hkey⟩ := exists_operation f hf
  obtain ⟨i, rfl, rfl⟩ := Operation.exists_encode hencoding hm
  exact ⟨i, rfl, hkey, i.described hencoding⟩

theorem exists_form (i : Instruction) :
    ∃ f ∈ instructionTable, f.encoding.Matches i.encode.word := by
  obtain ⟨e, he⟩ : ∃ e, i.operation.encoding? = some e := by
    cases i <;> exact ⟨_, rfl⟩
  exact ⟨_, Operation.form_mem _ (Operation.mem_all _) e he, (i.described he).matches_word⟩

/-- The word has been read as the line has it. -/
structure ReadAs (d : Decoded) (f : Form) (u : Nat) : Prop where
  key_eq : d.operation.key = f.key
  registered : ∀ t : OperationTable, t.mem d.operation.key = true
  operands_eq : d.operands = f.encoding.operands u
  inRange : d.operands.InRange
  valid_eq : d.valid = true
  encode?_eq : encode? d.operation.key d.operands = some (u : Int)

/-- The word has been turned down, and the reason is given. -/
structure Refused (d : Decoded) (u : Nat) : Prop where
  key_eq : d.operation.key = "OP_INVALID"
  operands_eq : d.operands = { raw := some (u : Int) }
  valid_eq : d.valid = false
  reason_eq : ∃ reason, d.reason = some reason ∧ reason.text ≠ ""

theorem readAs_of_matches {f : Form} (hf : f ∈ instructionTable) {o : Opcode}
    (hm : f.encoding.Matches o.word) : (ofOpcode o).ReadAs f o.word := by
  obtain ⟨i, rfl, hkey, hdescribes⟩ := of_form hf hm
  rw [ofOpcode_encode]
  refine
    { key_eq := hkey
      registered := fun t => ?_
      operands_eq := hdescribes.operands_eq.symm
      inRange := i.operands_inRange
      valid_eq := rfl
      encode?_eq := ?_ }
  · rw [OperationTable.mem, Operation.ofKey?_key _ (Operation.mem_all _)]
    rfl
  · rw [encode?, hkey, find?_key f hf]
    exact hdescribes.word?_eq

theorem refused_of_no_match {o : Opcode}
    (h : ∀ f ∈ instructionTable, ¬ f.encoding.Matches o.word) :
    (ofOpcode o).Refused o.word := by
  unfold ofOpcode
  cases hd : o.decode with
  | error reason => exact ⟨rfl, rfl, rfl, reason, rfl, reason.text_ne_empty⟩
  | ok i =>
    obtain ⟨f, hf, hm⟩ := exists_form i
    rw [← Opcode.decode_eq_ok_iff.mp hd] at hm
    exact absurd hm (h f hf)

theorem valid_iff {o : Opcode} :
    (ofOpcode o).valid = true ↔ ∃ f ∈ instructionTable, f.encoding.Matches o.word := by
  constructor
  · intro hvalid
    cases hd : o.decode with
    | error reason =>
      rw [ofOpcode, hd] at hvalid
      cases hvalid
    | ok i =>
      rw [Opcode.decode_eq_ok_iff.mp hd]
      exact exists_form i
  · rintro ⟨f, hf, hm⟩
    exact (readAs_of_matches hf hm).valid_eq

theorem encode?_of_valid {o : Opcode} (h : (ofOpcode o).valid = true) :
    encode? (ofOpcode o).operation.key (ofOpcode o).operands = some (o.word : Int) := by
  obtain ⟨f, hf, hm⟩ := valid_iff.mp h
  exact (readAs_of_matches hf hm).encode?_eq

/-- **The decoder accepts exactly the words of the table, and loses nothing of them.** Of a number
that is no word the low sixteen bits count. What they are is a line of the table, and then they are
read as that line has it and can be had back; or they are in no line, and then they are refused. -/
theorem table_exact (w : Int) :
    (Opcode.ofWord w).word = lowWord w ∧
    ofWord (lowWord w) = ofWord w ∧
    (Opcode.ofWord (lowWord w)).mnemonic = (Opcode.ofWord w).mnemonic ∧
    ((ofWord w).valid = true ↔ ∃ f ∈ instructionTable, f.encoding.Matches (lowWord w)) ∧
    (∀ f ∈ instructionTable, f.encoding.Matches (lowWord w) →
      (ofWord w).ReadAs f (lowWord w)) ∧
    ((∀ f ∈ instructionTable, ¬ f.encoding.Matches (lowWord w)) →
      (ofWord w).Refused (lowWord w)) ∧
    ∀ w' : Int, (ofWord w).valid = true → (ofWord w').valid = true →
      (ofWord w').operation.key = (ofWord w).operation.key →
      (ofWord w').operands = (ofWord w).operands → lowWord w' = lowWord w := by
  have hword : (Opcode.ofWord w).word = lowWord w := Opcode.word_ofWord w
  have hsame : Opcode.ofWord (lowWord w) = .ofWord w := Opcode.ofWord_lowWord w
  refine ⟨hword, congrArg ofOpcode hsame, congrArg Opcode.mnemonic hsame, ?_⟩
  rw [← hword]
  refine ⟨valid_iff, fun f hf hm => readAs_of_matches hf hm, refused_of_no_match, ?_⟩
  intro w' hvalid hvalid' hkey hoperands
  have hback : encode? (ofWord w).operation.key (ofWord w).operands = _ := encode?_of_valid hvalid
  have hback' : encode? (ofWord w').operation.key (ofWord w').operands = _ :=
    encode?_of_valid hvalid'
  rw [hkey, hoperands, hback, Option.some_inj, Int.natCast_inj] at hback'
  rw [← Opcode.word_ofWord w', hback']

/-- A number of more than sixteen bits draws a sprite, and a negative one is refused. -/
theorem table_exact_beyond :
    (ofWord 0x1D12F).operation.key = "OP_DRW" ∧
    (ofWord 0x1D12F).operands = { x := some 1, y := some 2, n := some 15 } ∧
    (ofWord (-1)).operands = { raw := some 0xFFFF } := by
  obtain ⟨-, -, -, -, hread, -, -⟩ := table_exact 0x1D12F
  obtain ⟨-, -, -, -, -, hrefused, -⟩ := table_exact (-1)
  have hdraw := hread ⟨.xyn 0xD, "OP_DRW"⟩ (by decide) (by decide)
  exact ⟨hdraw.key_eq, hdraw.operands_eq, (hrefused (by decide)).operands_eq⟩

end Decoded

end Chip8
