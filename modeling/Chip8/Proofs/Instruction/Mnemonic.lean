import Chip8.Instruction.Mnemonic
import Chip8.Proofs.Instruction.Table
import Chip8.Proofs.Text.Hexadecimal

/-!
# Mnemonics are read back

From the text of an opcode the opcode can be had again, so that no two have the same text.

The text is cut into words at blanks and commas. A word is a register, a number with its mark, a
count, or a name, and the kinds of the words in their order are the `layout` of the text. What has
to be known about the instruction set is then one fact, found by going through its operations:

> **no two operations have the same layout** (`find?_layout`),

with the form for what is no instruction among them. The layout of a text therefore tells the
operation, and the numbers in the text are its operands, whatever they are: `Opcode.ofMnemonic?`
reads texts in this way, and reads every mnemonic back (`ofMnemonic?_mnemonic`).
-/

set_option autoImplicit false

namespace Chip8

open Text Text.Numeral

namespace Mnemonic

/-! ## The words of a text -/

/-- What stands between the words of a mnemonic. -/
def isGap (c : Char) : Bool := isBlank c || c == ','

def words (text : String) : List (List Char) := fields isGap text.toList

inductive Kind
  /-- `V` and a digit. -/
  | register
  /-- A number in base 16, with its mark. -/
  | marked
  /-- A number in base 10. -/
  | count
  | name (word : List Char)
deriving DecidableEq

def kind : List Char → Kind
  | ['V', _] => .register
  | '0' :: 'x' :: _ => .marked
  | word => if word.all Char.isDigit then .count else .name word

/-- The number that a word stands for, unless it is a name. -/
def value? (word : List Char) : Option Nat :=
  match kind word with
  | .register => word.getLast?.map digitValue
  | .marked => (hex? word).map Int.toNat
  | .count => (decimal? word).map Int.toNat
  | .name _ => none

def layout (text : String) : List Kind := (words text).map kind

def values (text : String) : List Nat := (words text).filterMap value?

/-- The words on the two sides of a gap. -/
theorem words_append_gap (a : String) {gap : String} (hne : gap.toList ≠ [])
    (hgap : gap.toList.all isGap = true) (b : String) :
    words (a ++ gap ++ b) = words a ++ words b := by
  rw [words, String.toList_append, String.toList_append, List.append_assoc]
  exact fields_append_gap hne (List.all_eq_true.mp hgap) a.toList b.toList

/-- A text that begins with a gap is cut off from what is before it. -/
theorem words_append_of_head (a : String) {b : String}
    (h : b.toList.head?.all isGap = true) : words (a ++ b) = words a ++ words b := by
  rw [words, words, words, String.toList_append]
  cases hb : b.toList with
  | nil => simp [fields]
  | cons c cs =>
    rw [hb] at h
    have hc : isGap c = true := h
    rw [fields_append hc, fields_of_separator hc]

/-- A text that ends in a gap is cut off from what is behind it. -/
theorem words_append_of_getLast {a : String} (h : a.toList.getLast?.all isGap = true)
    (b : String) : words (a ++ b) = words a ++ words b := by
  rw [words, words, words, String.toList_append]
  rcases List.eq_nil_or_concat a.toList with ha | ⟨cs, c, ha⟩
  · rw [ha]
    rfl
  · rw [List.concat_eq_append] at ha
    have hc : isGap c = true := by simpa [ha] using h
    have hleft : fields isGap (cs ++ [c]) = fields isGap cs := by
      rw [fields_append hc]
      exact List.append_nil _
    rw [ha, hleft, List.append_assoc]
    exact fields_append hc cs b.toList

theorem words_of_isField {text : String} (h : IsField isGap text.toList) :
    words text = [text.toList] := by
  have hend : ∀ c ∈ ([] : List Char).head?, isGap c = true := nofun
  have hfields := fields_word_append h hend
  rw [List.append_nil] at hfields
  exact hfields

/-! ## What texts are read as -/

/-- The text has this layout, and these numbers stand in it. -/
structure Reads (text : String) (ks : List Kind) (vs : List Nat) : Prop where
  layout_eq : layout text = ks
  values_eq : values text = vs

theorem reads_self (text : String) : Reads text (layout text) (values text) := ⟨rfl, rfl⟩

theorem Reads.of_words {text a b : String} {ks ks' : List Kind} {vs vs' : List Nat}
    (h : words text = words a ++ words b) (ha : Reads a ks vs) (hb : Reads b ks' vs') :
    Reads text (ks ++ ks') (vs ++ vs') := by
  obtain ⟨rfl, rfl⟩ := ha
  obtain ⟨rfl, rfl⟩ := hb
  constructor
  · rw [layout, h, List.map_append]
    rfl
  · rw [values, h, List.filterMap_append]
    rfl

/-- Operands follow behind a blank, and behind a comma and a blank. -/
theorem Reads.blank {a b : String} {ks ks' : List Kind} {vs vs' : List Nat} (ha : Reads a ks vs)
    (hb : Reads b ks' vs') : Reads (a ++ " " ++ b) (ks ++ ks') (vs ++ vs') :=
  .of_words (words_append_gap a (by decide) (by decide) b) ha hb

theorem Reads.comma {a b : String} {ks ks' : List Kind} {vs vs' : List Nat} (ha : Reads a ks vs)
    (hb : Reads b ks' vs') : Reads (a ++ ", " ++ b) (ks ++ ks') (vs ++ vs') :=
  .of_words (words_append_gap a (by decide) (by decide) b) ha hb

/-- A text that is one word, and no name. -/
theorem reads_word {text : String} {k : Kind} {n : Nat} (h : IsField isGap text.toList)
    (hkind : kind text.toList = k) (hvalue : value? text.toList = some n) :
    Reads text [k] [n] := by
  constructor
  · rw [layout, words_of_isField h, List.map_singleton, hkind]
  · rw [values, words_of_isField h, List.filterMap_cons_some hvalue, List.filterMap_nil]

theorem toList_registerName {x : Nat} (hx : x < 16) :
    (registerName x).toList = ['V', Hex.digit x] := by
  have hdigits : Hex.digits x = [Hex.digit x] := by
    rw [Hex.digits_eq, if_pos hx]
  have hpadded : (Hex.padded 1 x).toList = [Hex.digit x] := by
    show (String.ofList (Hex.zeroPad 1 (Hex.digits x))).toList = [Hex.digit x]
    rw [hdigits, String.toList_ofList]
    rfl
  rw [registerName, String.toList_append, hpadded]
  rfl

theorem field_register : ∀ x < 16, IsField isGap ['V', Hex.digit x] ∧
    value? ['V', Hex.digit x] = some x := by
  have hgap : ∀ x < 16, isGap (Hex.digit x) = false := by decide
  have hvalue : ∀ x < 16, value? ['V', Hex.digit x] = some x := by decide
  intro x hx
  have hinside : ∀ c ∈ [Hex.digit x], isGap c = false := by simpa using hgap x hx
  exact ⟨isField_cons (by decide) hinside, hvalue x hx⟩

theorem reads_register (x : Nibble) : Reads (registerName x.val) [.register] [x.val] := by
  obtain ⟨hfield, hvalue⟩ := field_register x.val x.isLt
  rw [← toList_registerName x.isLt] at hfield hvalue
  apply reads_word hfield _ hvalue
  rw [toList_registerName x.isLt]
  rfl

/-- The height of a sprite has one digit or two. -/
theorem reads_count (n : Nibble) : Reads (toString n.val) [.count] [n.val] := by
  have hne : ∀ n : Nibble, (toString n.val).toList ≠ [] := by decide
  have hgap : ∀ n : Nibble, (toString n.val).toList.all (!isGap ·) = true := by decide
  have hkind : ∀ n : Nibble, kind (toString n.val).toList = .count := by decide
  have hvalue : ∀ n : Nibble, value? (toString n.val).toList = some n.val := by decide
  have hinside : ∀ c ∈ (toString n.val).toList, isGap c = false := by simpa using hgap n
  exact reads_word ⟨hne n, hinside⟩ (hkind n) (hvalue n)

theorem not_gap_of_inside {c : Char} (h : IsInside c) : isGap c = false := by
  obtain ⟨hblank, hcomma, -⟩ := h
  rw [isGap, hblank, Bool.false_or, beq_eq_false_iff_ne]
  exact hcomma

theorem reads_marked (width n : Nat) : Reads ("0x" ++ Hex.padded width n) [.marked] [n] := by
  have hwritten : Written ("0x" ++ Hex.padded width n).toList n := written_marked width n
  have hkind : kind ("0x" ++ Hex.padded width n).toList = .marked := by
    rw [String.toList_append]
    rfl
  apply reads_word _ hkind
  · rw [value?, hkind]
    dsimp only
    rw [hex?_of_written hwritten]
    rfl
  · exact ⟨hwritten.ne_nil, fun c hc => not_gap_of_inside (hwritten.inside c hc)⟩

end Mnemonic

open Mnemonic

/-! ## Instructions -/

/-- The layout of an operation's mnemonics, whatever the operands are. -/
def Operation.layout : Operation → List Kind
  | .clear => Mnemonic.layout "CLS"
  | .ret => Mnemonic.layout "RET"
  | .address op => Mnemonic.layout op.mnemonic ++ [.marked]
  | .immediate op => Mnemonic.layout op.mnemonic ++ [.register, .marked]
  | .pair op => Mnemonic.layout op.mnemonic ++ [.register, .register]
  | .draw => Mnemonic.layout "DRW" ++ [.register, .register, .count]
  | .register op => Mnemonic.layout op.around.1 ++ ([.register] ++ Mnemonic.layout op.around.2)
  | .invalid => Mnemonic.layout "???" ++ [.marked]

/-- The numbers in an instruction's mnemonic, in their order. -/
def Instruction.values : Instruction → List Nat
  | .clear | .ret => []
  | .address op addr => Mnemonic.values op.mnemonic ++ [addr.val]
  | .immediate _ x value => [x.val, value.val]
  | .pair _ x y => [x.val, y.val]
  | .draw x y n => [x.val, y.val, n.val]
  | .register _ x => [x.val]

/-- **No two operations have the same layout.** -/
theorem Operation.find?_layout :
    ∀ op ∈ Operation.all, Operation.all.find? (·.layout = op.layout) = some op := by
  decide +kernel

/-- The names of these operations hold no numbers. -/
theorem ImmediateOp.reads_mnemonic (op : ImmediateOp) :
    Reads op.mnemonic (layout op.mnemonic) [] := by
  refine ⟨rfl, ?_⟩
  cases op <;> decide

theorem PairOp.reads_mnemonic (op : PairOp) : Reads op.mnemonic (layout op.mnemonic) [] := by
  refine ⟨rfl, ?_⟩
  cases op <;> decide

theorem RegisterOp.reads_around (op : RegisterOp) {name : String} {ks : List Kind} {vs : List Nat}
    (h : Reads name ks vs) : Reads (op.around.1 ++ name ++ op.around.2)
      (layout op.around.1 ++ (ks ++ layout op.around.2)) vs := by
  have hbefore : op.around.1.toList.getLast?.all isGap = true := by
    cases op <;> decide
  have hafter : op.around.2.toList.head?.all isGap = true := by
    cases op <;> decide
  have hnone : values op.around.1 = [] ∧ values op.around.2 = [] := by
    cases op <;> decide
  have htail : Reads (name ++ op.around.2) (ks ++ layout op.around.2) vs := by
    have htail := Reads.of_words (words_append_of_head name hafter) h (reads_self _)
    rw [hnone.2, List.append_nil] at htail
    exact htail
  have hall := Reads.of_words (words_append_of_getLast hbefore _) (reads_self _) htail
  rw [hnone.1, List.nil_append, ← String.append_assoc] at hall
  exact hall

/-- The text of an instruction tells its operation by its layout, and the operands. -/
theorem Instruction.reads_mnemonic (i : Instruction) :
    Reads i.mnemonic i.operation.layout i.values := by
  cases i with
  | clear => exact ⟨rfl, by decide⟩
  | ret => exact ⟨rfl, by decide⟩
  | address op addr => exact (reads_self op.mnemonic).blank (reads_marked 3 addr.val)
  | immediate op x value =>
    have htext : (Instruction.immediate op x value).mnemonic =
        op.mnemonic ++ " " ++ registerName x.val ++ ", " ++ ("0x" ++ Hex.padded 2 value.val) := by
      have hmark : (", 0x" : String) = ", " ++ "0x" := by decide
      simp only [Instruction.mnemonic, hmark, String.append_assoc]
    have hreads := (op.reads_mnemonic.blank (reads_register x)).comma (reads_marked 2 value.val)
    rw [← htext, List.append_assoc] at hreads
    exact hreads
  | pair op x y =>
    have hreads := (op.reads_mnemonic.blank (reads_register x)).comma (reads_register y)
    rw [List.append_assoc] at hreads
    exact hreads
  | draw x y n =>
    have hname : Reads "DRW" (layout "DRW") [] := ⟨rfl, by decide⟩
    have hreads := ((hname.blank (reads_register x)).comma (reads_register y)).comma (reads_count n)
    rw [List.append_assoc, List.append_assoc] at hreads
    exact hreads
  | register op x => exact op.reads_around (reads_register x)

/-! ## Texts on one line -/

theorem oneLine_registerName (x : Nat) : OneLine (registerName x) :=
  OneLine.append (by decide) (oneLine_padded 1 x)

theorem Instruction.oneLine_mnemonic (i : Instruction) : OneLine i.mnemonic := by
  have hcomma : OneLine ", " := by decide
  have hblank : OneLine " " := by decide
  have hmark : OneLine "0x" ∧ OneLine ", 0x" := by decide
  have hname (x : Nibble) : OneLine (registerName x.val) := oneLine_registerName x.val
  cases i with
  | clear | ret => decide
  | address op addr =>
    have hop : OneLine op.mnemonic := by cases op <;> decide
    exact (hop.append hblank).append (hmark.1.append (oneLine_padded 3 addr.val))
  | immediate op x value =>
    have hop : OneLine op.mnemonic := by cases op <;> decide
    exact (((hop.append hblank).append (hname x)).append hmark.2).append (oneLine_padded 2 _)
  | pair op x y =>
    have hop : OneLine op.mnemonic := by cases op <;> decide
    exact (((hop.append hblank).append (hname x)).append hcomma).append (hname y)
  | draw x y n =>
    have hop : OneLine "DRW " := by decide
    have hcount : ∀ n : Nibble, OneLine (toString n.val) := by decide
    exact ((((hop.append (hname x)).append hcomma).append (hname y)).append hcomma).append
      (hcount n)
  | register op x =>
    have hop : OneLine op.around.1 ∧ OneLine op.around.2 := by cases op <;> decide
    exact (hop.1.append (hname x)).append hop.2

theorem Opcode.oneLine_text (o : Opcode) : OneLine o.text :=
  OneLine.append (by decide) (oneLine_padded 4 o.word)

theorem Opcode.oneLine_mnemonic (o : Opcode) : OneLine o.mnemonic := by
  rw [mnemonic]
  cases o.decode with
  | ok i => exact i.oneLine_mnemonic
  | error reason =>
    have hname : OneLine "??? " := by decide
    exact hname.append o.oneLine_text

/-! ## Reading texts -/

/-- A number cut to what an operand can hold. -/
def lowPart {size : Nat} (pos : 0 < size) (n : Nat) : Fin size := ⟨n % size, Nat.mod_lt n pos⟩

theorem lowPart_val {size : Nat} (pos : 0 < size) (i : Fin size) : lowPart pos i.val = i :=
  Fin.ext (Nat.mod_eq_of_lt i.isLt)

def nibble (n : Nat) : Nibble := lowPart (by decide) n

/-- The opcode of an operation whose operands are these numbers. -/
def Operation.ofValues? : Operation → List Nat → Option Opcode
  | .clear, _ => some Instruction.clear.encode
  | .ret, _ => some Instruction.ret.encode
  | .address op, vs =>
    vs.getLast?.map fun addr => (Instruction.address op (lowPart (by decide) addr)).encode
  | .immediate op, [x, value] =>
    some (Instruction.immediate op (nibble x) (lowPart (by decide) value)).encode
  | .pair op, [x, y] => some (Instruction.pair op (nibble x) (nibble y)).encode
  | .draw, [x, y, n] => some (Instruction.draw (nibble x) (nibble y) (nibble n)).encode
  | .register op, [x] => some (Instruction.register op (nibble x)).encode
  | .invalid, [word] => some (Opcode.ofWord word)
  | _, _ => none

/-- The opcode that a layout and numbers belong to. -/
def Opcode.ofLayout? (ks : List Kind) (vs : List Nat) : Option Opcode :=
  (Operation.all.find? (·.layout = ks)).bind (·.ofValues? vs)

/-- The opcode with a text. -/
def Opcode.ofMnemonic? (text : String) : Option Opcode :=
  Opcode.ofLayout? (layout text) (values text)

theorem Instruction.ofValues?_values (i : Instruction) :
    i.operation.ofValues? i.values = some i.encode := by
  cases i with
  | clear | ret => rfl
  | address | immediate | pair | draw | register =>
    simp [Instruction.values, Instruction.operation, Operation.ofValues?, nibble, lowPart_val]

theorem Operation.ofLayout?_layout (op : Operation) (vs : List Nat) :
    Opcode.ofLayout? op.layout vs = op.ofValues? vs := by
  rw [Opcode.ofLayout?, Operation.find?_layout op (Operation.mem_all op), Option.bind_some]

theorem Opcode.lowWord_word (o : Opcode) : lowWord o.word = o.word := by
  have hlt : o.word < 0x10000 := by
    rw [word]
    omega
  rw [lowWord]
  omega

theorem Opcode.ofWord_word (o : Opcode) : Opcode.ofWord o.word = o := by
  rw [← word_inj, word_ofWord, o.lowWord_word]

/-- What the text of an opcode is read as leads back to the opcode. -/
theorem Opcode.exists_reads (o : Opcode) :
    ∃ ks vs, Reads o.mnemonic ks vs ∧ Opcode.ofLayout? ks vs = some o := by
  cases hd : o.decode with
  | ok i =>
    refine ⟨i.operation.layout, i.values, ?_, ?_⟩
    · rw [Opcode.mnemonic, hd]
      exact i.reads_mnemonic
    · rw [Operation.ofLayout?_layout, i.ofValues?_values, Opcode.decode_eq_ok_iff.mp hd]
  | error reason =>
    refine ⟨Operation.invalid.layout, [o.word], ?_, ?_⟩
    · have hname : Reads "???" (layout "???") [] := ⟨rfl, by decide⟩
      rw [Opcode.mnemonic, hd]
      exact hname.blank (reads_marked 4 o.word)
    · rw [Operation.ofLayout?_layout, Operation.ofValues?, o.ofWord_word]

theorem Opcode.ofMnemonic?_mnemonic (o : Opcode) : Opcode.ofMnemonic? o.mnemonic = some o := by
  obtain ⟨ks, vs, ⟨rfl, rfl⟩, hback⟩ := o.exists_reads
  exact hback

/-- A shift shows the register that it does not use. -/
example : Opcode.ofMnemonic? "SHR V3, V4" = some ⟨0x8, 0x3, 0x4, 0x6⟩ := by decide +kernel

/-- What is shown of a word tells the word. -/
theorem Opcode.eq_of_layout_values {u v : Fin 0x10000}
    (hlayout : layout (ofWord u.val).mnemonic = layout (ofWord v.val).mnemonic)
    (hvalues : values (ofWord u.val).mnemonic = values (ofWord v.val).mnemonic) : u = v := by
  have hword : ∀ w : Fin 0x10000, (ofWord w.val).word = w.val := by
    intro w
    rw [word_ofWord, lowWord]
    omega
  have hback : ofMnemonic? (ofWord u.val).mnemonic = ofMnemonic? (ofWord v.val).mnemonic := by
    rw [ofMnemonic?, hlayout, hvalues]
    rfl
  rw [ofMnemonic?_mnemonic, ofMnemonic?_mnemonic, Option.some_inj] at hback
  apply Fin.ext
  rw [← hword u, ← hword v, hback]

/-- **No two words have the same text.** Every opcode is read back from its text, and two words of
sixteen bits are the same if their texts are, or even if the layouts of their texts and the numbers
in them are. -/
theorem Opcode.mnemonic_eq_iff :
    (∀ o : Opcode, ofMnemonic? o.mnemonic = some o) ∧
    ∀ u v : Fin 0x10000,
      ((ofWord u.val).mnemonic = (ofWord v.val).mnemonic ↔ u = v) ∧
      (layout (ofWord u.val).mnemonic = layout (ofWord v.val).mnemonic ∧
        values (ofWord u.val).mnemonic = values (ofWord v.val).mnemonic ↔ u = v) := by
  refine ⟨ofMnemonic?_mnemonic, fun u v => ⟨⟨?_, ?_⟩, ⟨?_, ?_⟩⟩⟩
  · intro htext
    exact eq_of_layout_values (by rw [htext]) (by rw [htext])
  · rintro rfl
    rfl
  · rintro ⟨hlayout, hvalues⟩
    exact eq_of_layout_values hlayout hvalues
  · rintro rfl
    exact ⟨rfl, rfl⟩

end Chip8
