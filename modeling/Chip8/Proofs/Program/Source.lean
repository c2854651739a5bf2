import Mathlib.Data.List.Forall2
import Chip8.Program.Source
import Chip8.Proofs.Program.Image
import Chip8.Proofs.Text.Numeral

/-!
# Two ways to write a program

An inline program and a listing are read by different rules, and for a reader of listings a
semicolon begins a comment while for the other it is a separator. Two things are shown.

> **Without its comments, a listing is an inline program with the same image**
> (`listing_is_inline`),

unless it has a comma outside of them, which only the inline form allows. When both are refused they
can name different words: the one reads and packs word by word, the other reads all words first.

> **However the words of a program are written and set apart, they are read** (`ofInline_written`),

in all the ways that `Numeral.Written` and `Separated` allow.

Both rest on what becomes of the words once they are cut out. `wordByWord` and `readFirst` say it
by the first word that has a fault, the one for all faults and the other for each kind in turn.
-/

set_option autoImplicit false

namespace Chip8.Program

open Text Numeral

/-! ## What is wrong with a word -/

def IsNumeral (word : List Char) : Prop := ∃ n, Written word n

def IsInstructionWord (word : List Char) : Prop := ∃ n, Written word n ∧ IsWord n

/-- What is wrong with a written word. -/
inductive Complaint (word : List Char) : SourceError → Prop
  | badNumeral (h : ¬ IsNumeral word) : Complaint word (.badNumeral word)
  | outOfRange {n : Int} (h : Written word n) (hn : ¬ IsWord n) : Complaint word (.wordOutOfRange n)

/-- The first of some words of which something holds. -/
def IsFirst (P : List Char → Prop) (words : List (List Char)) (word : List Char) : Prop :=
  ∃ before after, words = before ++ word :: after ∧ (∀ v ∈ before, ¬ P v) ∧ P word

/-- The error for a word that is no numeral. -/
def unread? (word : List Char) : Option SourceError :=
  match hex? word with
  | some _ => none
  | none => some (.badNumeral word)

/-- The error for a word, if it has one. -/
def complaint? (word : List Char) : Option SourceError :=
  match hex? word with
  | some n => if IsWord n then none else some (.wordOutOfRange n)
  | none => some (.badNumeral word)

/-- The number that a word stands for; of no meaning for one that is no numeral. -/
def valueOf (word : List Char) : Int := (hex? word).getD 0

/-! ## Reading lists of words -/

/-- Each word is read and packed before the next is looked at. -/
def wordByWord (words : List (List Char)) : Except SourceError (List UInt8) :=
  match words.findSome? complaint? with
  | some e => .error e
  | none => .ok (image (words.map valueOf))

/-- All words are read before one is packed. -/
def readFirst (words : List (List Char)) : Except SourceError (List UInt8) :=
  match words.findSome? unread? with
  | some e => .error e
  | none => ofWords (words.map valueOf)

/-- A traversal ends at the first element that has a fault. -/
theorem mapM_eq {α β ε : Type} {f : α → Except ε β} {fault : α → Option ε} {value : α → β}
    (hbad : ∀ x e, fault x = some e → f x = .error e)
    (hgood : ∀ x, fault x = none → f x = .ok (value x)) (xs : List α) :
    xs.mapM f = match xs.findSome? fault with
      | some e => .error e
      | none => .ok (xs.map value) := by
  induction xs with
  | nil => rfl
  | cons x xs ih =>
    rw [List.mapM_cons, ih, List.findSome?_cons]
    cases hx : fault x with
    | some e =>
      rw [hbad x e hx]
      rfl
    | none =>
      rw [hgood x hx]
      cases xs.findSome? fault with
      | some e => rfl
      | none => rfl

theorem readWord_eq (word : List Char) :
    (∀ e, unread? word = some e → readWord word = .error e) ∧
      (unread? word = none → readWord word = .ok (valueOf word)) := by
  rw [readWord, unread?, valueOf]
  cases hex? word with
  | none => exact ⟨by rintro e ⟨⟩; rfl, by rintro ⟨⟩⟩
  | some n => exact ⟨by rintro e ⟨⟩, fun _ => rfl⟩

theorem readWord_wordBytes_eq (word : List Char) :
    (∀ e, complaint? word = some e → (readWord word >>= wordBytes) = .error e) ∧
      (complaint? word = none → (readWord word >>= wordBytes) = .ok (bytesOf (valueOf word))) := by
  rw [readWord, complaint?, valueOf]
  cases hex? word with
  | none => exact ⟨by rintro e ⟨⟩; rfl, by rintro ⟨⟩⟩
  | some n =>
    have hbind : ((Except.ok n : Except SourceError Int) >>= wordBytes) = wordBytes n := rfl
    dsimp only
    rw [hbind, wordBytes_eq]
    by_cases hn : IsWord n
    · rw [if_pos hn, if_pos hn]
      exact ⟨by rintro e ⟨⟩, fun _ => rfl⟩
    · rw [if_neg hn, if_neg hn]
      exact ⟨by rintro e ⟨⟩; rfl, by rintro ⟨⟩⟩

theorem ofInline_eq (cs : List Char) : ofInline cs = wordByWord (inlineWords cs) := by
  rw [ofInline, mapM_eq (fun w => (readWord_wordBytes_eq w).1)
    (fun w => (readWord_wordBytes_eq w).2), wordByWord]
  cases (inlineWords cs).findSome? complaint? with
  | some e => rfl
  | none =>
    rw [image, List.flatMap_map]
    rfl

theorem ofListing_eq (cs : List Char) : ofListing cs = readFirst (listingWords cs) := by
  rw [ofListing, mapM_eq (fun w => (readWord_eq w).1) (fun w => (readWord_eq w).2), readFirst]
  cases (listingWords cs).findSome? unread? with
  | some e => rfl
  | none => rfl

/-! ## The first word with a fault -/

/-- There is no blank in the word. -/
def IsSolid (word : List Char) : Prop := ∀ c ∈ word, isBlank c = false

variable {word : List Char} {words : List (List Char)} {e : SourceError}

theorem unread?_eq_some_iff (h : IsSolid word) :
    unread? word = some e ↔ ¬ IsNumeral word ∧ e = .badNumeral word := by
  rw [unread?]
  cases hread : hex? word with
  | some n =>
    refine ⟨by rintro ⟨⟩, fun hnot => absurd ?_ hnot.1⟩
    exact ⟨n, (hex?_eq_some_iff_of_word h).mp hread⟩
  | none =>
    have hnot : ¬ IsNumeral word := by
      rintro ⟨n, hn⟩
      rw [(hex?_eq_some_iff_of_word h).mpr hn] at hread
      cases hread
    refine ⟨?_, ?_⟩
    · rintro ⟨⟩
      exact ⟨hnot, rfl⟩
    · rintro ⟨-, rfl⟩
      rfl

theorem complaint?_eq_some_iff (h : IsSolid word) :
    complaint? word = some e ↔ Complaint word e := by
  have hread {n : Int} : hex? word = some n ↔ Written word n := hex?_eq_some_iff_of_word h
  constructor
  · rw [complaint?]
    cases hw : hex? word with
    | none =>
      rintro ⟨⟩
      refine .badNumeral ?_
      rintro ⟨n, hn⟩
      rw [hread.mpr hn] at hw
      cases hw
    | some n =>
      dsimp only
      by_cases hn : IsWord n
      · rw [if_pos hn]
        rintro ⟨⟩
      · rw [if_neg hn]
        rintro ⟨⟩
        exact .outOfRange (hread.mp hw) hn
  · intro hc
    cases hc with
    | badNumeral hnot =>
      have hnone : hex? word = none :=
        Option.eq_none_iff_forall_ne_some.mpr fun n hn => hnot ⟨n, hread.mp hn⟩
      rw [complaint?, hnone]
    | outOfRange hw hn =>
      rw [complaint?, hread.mpr hw]
      exact if_neg hn

theorem complaint?_eq_none_iff (h : IsSolid word) :
    complaint? word = none ↔ IsInstructionWord word := by
  have hread {n : Int} : hex? word = some n ↔ Written word n := hex?_eq_some_iff_of_word h
  rw [complaint?]
  cases hw : hex? word with
  | none =>
    refine ⟨by rintro ⟨⟩, ?_⟩
    rintro ⟨n, hn, -⟩
    rw [hread.mpr hn] at hw
    cases hw
  | some n =>
    dsimp only
    constructor
    · intro hnone
      refine ⟨n, hread.mp hw, ?_⟩
      by_contra hn
      rw [if_neg hn] at hnone
      cases hnone
    · rintro ⟨n', hn', hword⟩
      rw [hread.mpr hn', Option.some_inj] at hw
      rw [← hw, if_pos hword]

theorem unread?_eq_none_iff (h : IsSolid word) : unread? word = none ↔ IsNumeral word := by
  rw [Option.eq_none_iff_forall_ne_some]
  constructor
  · intro hnone
    by_contra hnot
    exact hnone _ ((unread?_eq_some_iff h).mpr ⟨hnot, rfl⟩)
  · exact fun hn e he => ((unread?_eq_some_iff h).mp he).1 hn

theorem isFirst_cons_iff {P : List Char → Prop} {v : List Char} :
    IsFirst P (v :: words) word ↔ (P v ∧ word = v) ∨ (¬ P v ∧ IsFirst P words word) := by
  constructor
  · rintro ⟨before, after, heq, hbefore, hword⟩
    cases before with
    | nil =>
      obtain ⟨rfl, rfl⟩ := List.cons.inj heq
      exact Or.inl ⟨hword, rfl⟩
    | cons w before =>
      obtain ⟨rfl, rfl⟩ := List.cons.inj heq
      obtain ⟨hv, hbefore⟩ := List.forall_mem_cons.mp hbefore
      exact Or.inr ⟨hv, before, after, rfl, hbefore, hword⟩
  · rintro (⟨hv, rfl⟩ | ⟨hv, before, after, rfl, hbefore, hword⟩)
    · exact ⟨[], words, rfl, List.forall_mem_nil _, hv⟩
    · exact ⟨v :: before, after, rfl, List.forall_mem_cons.mpr ⟨hv, hbefore⟩, hword⟩

/-- The first element with a fault is the one that is reported. -/
theorem findSome?_eq_some_iff_isFirst {fault : List Char → Option SourceError}
    {P : List Char → Prop} (hfault : ∀ v ∈ words, (fault v = none ↔ ¬ P v)) :
    words.findSome? fault = some e ↔ ∃ word, IsFirst P words word ∧ fault word = some e := by
  rw [List.findSome?_eq_some_iff]
  constructor
  · rintro ⟨before, word, after, rfl, hword, hbefore⟩
    obtain ⟨hleft, hright⟩ := List.forall_mem_append.mp hfault
    refine ⟨word, ⟨before, after, rfl, ?_, ?_⟩, hword⟩
    · exact fun v hv => (hleft v hv).mp (hbefore v hv)
    · by_contra hnot
      rw [(hright word List.mem_cons_self).mpr hnot] at hword
      cases hword
  · rintro ⟨word, ⟨before, after, rfl, hbefore, -⟩, hword⟩
    obtain ⟨hleft, -⟩ := List.forall_mem_append.mp hfault
    exact ⟨before, word, after, rfl, hword, fun v hv => (hleft v hv).mpr (hbefore v hv)⟩

theorem wordByWord_eq_error : wordByWord words = .error e ↔
    words.findSome? complaint? = some e := by
  rw [wordByWord]
  cases words.findSome? complaint? with
  | none => simp
  | some e' => simp

theorem readFirst_eq_error (h : words.findSome? unread? ≠ none) :
    readFirst words = .error e ↔ words.findSome? unread? = some e := by
  rw [readFirst]
  cases hfirst : words.findSome? unread? with
  | none => exact absurd hfirst h
  | some e' => simp

theorem wordByWord_eq_error_iff (h : ∀ v ∈ words, IsSolid v) : wordByWord words = .error e ↔
    ∃ word, IsFirst (¬ IsInstructionWord ·) words word ∧ Complaint word e := by
  have hfault : ∀ v ∈ words, (complaint? v = none ↔ ¬ ¬ IsInstructionWord v) :=
    fun v hv => (complaint?_eq_none_iff (h v hv)).trans not_not.symm
  rw [wordByWord_eq_error, findSome?_eq_some_iff_isFirst hfault]
  refine exists_congr fun word => and_congr_right ?_
  rintro ⟨before, after, rfl, -⟩
  exact complaint?_eq_some_iff (h word (by simp))

/-- Where all words are numerals it makes no difference when they are packed. -/
theorem readFirst_of_numerals (h : ∀ v ∈ words, IsSolid v) (hall : ∀ v ∈ words, IsNumeral v) :
    readFirst words = wordByWord words := by
  have hunread : words.findSome? unread? = none :=
    List.findSome?_eq_none_iff.mpr fun v hv => (unread?_eq_none_iff (h v hv)).mpr (hall v hv)
  have hfirst : words.findSome? complaint? =
      ((words.map valueOf).find? (¬ IsWord ·)).map .wordOutOfRange := by
    clear hunread
    induction words with
    | nil => rfl
    | cons v words ih =>
      obtain ⟨⟨n, hn⟩, hall⟩ := List.forall_mem_cons.mp hall
      obtain ⟨hv, h⟩ := List.forall_mem_cons.mp h
      have hread : hex? v = some n := (hex?_eq_some_iff_of_word hv).mpr hn
      have hvalue : valueOf v = n := by rw [valueOf, hread, Option.getD_some]
      rw [List.findSome?_cons, List.map_cons, hvalue, complaint?, hread]
      dsimp only
      by_cases hword : IsWord n
      · rw [if_pos hword, List.find?_cons_of_neg (by simpa using hword)]
        exact ih h hall
      · rw [if_neg hword, List.find?_cons_of_pos (by simpa using hword)]
        rfl
  rw [readFirst, hunread, wordByWord, hfirst]
  dsimp only
  rw [ofWords_eq]
  cases (words.map valueOf).find? (¬ IsWord ·) with
  | none => rfl
  | some n => rfl

/-- What has to be said of a numeral. -/
theorem complaint_iff_of_numeral (hnum : IsNumeral word) :
    Complaint word e ↔ ∃ n, Written word n ∧ ¬ IsWord n ∧ e = .wordOutOfRange n := by
  constructor
  · rintro (hnot | ⟨hn, hrange⟩)
    · exact absurd hnum hnot
    · exact ⟨_, hn, hrange, rfl⟩
  · rintro ⟨n, hn, hrange, rfl⟩
    exact .outOfRange hn hrange

theorem readFirst_eq_error_iff (h : ∀ v ∈ words, IsSolid v) : readFirst words = .error e ↔
    (∃ word, IsFirst (¬ IsNumeral ·) words word ∧ e = .badNumeral word) ∨
      (∀ v ∈ words, IsNumeral v) ∧
        ∃ word, IsFirst (¬ IsInstructionWord ·) words word ∧
          ∃ n, Written word n ∧ ¬ IsWord n ∧ e = .wordOutOfRange n := by
  have hfault : ∀ v ∈ words, (unread? v = none ↔ ¬ ¬ IsNumeral v) :=
    fun v hv => (unread?_eq_none_iff (h v hv)).trans not_not.symm
  by_cases hall : ∀ v ∈ words, IsNumeral v
  · have hright : (∃ word, IsFirst (¬ IsNumeral ·) words word ∧ e = .badNumeral word) ↔ False := by
      refine iff_false_intro ?_
      rintro ⟨word, ⟨before, after, rfl, -, hnot⟩, -⟩
      exact hnot (hall word (by simp))
    rw [readFirst_of_numerals h hall, wordByWord_eq_error_iff h, hright, false_or,
      and_iff_right hall]
    refine exists_congr fun word => and_congr_right ?_
    rintro ⟨before, after, rfl, -⟩
    exact complaint_iff_of_numeral (hall word (by simp))
  · have hsome : words.findSome? unread? ≠ none := by
      intro hnone
      exact hall fun v hv =>
        (unread?_eq_none_iff (h v hv)).mp (List.findSome?_eq_none_iff.mp hnone v hv)
    rw [readFirst_eq_error hsome, findSome?_eq_some_iff_isFirst hfault,
      or_iff_left fun hright => hall hright.1]
    refine exists_congr fun word => and_congr_right ?_
    rintro ⟨before, after, rfl, -, hnot⟩
    rw [unread?_eq_some_iff (h word (by simp)), and_iff_right hnot]

/-- A word that is no numeral is fatal to both. -/
theorem exists_error_of_not_numeral (h : ∀ v ∈ words, IsSolid v) (hmem : word ∈ words)
    (hword : ¬ IsNumeral word) :
    (∃ e, readFirst words = .error e) ∧ ∃ e, wordByWord words = .error e := by
  have reported {fault : List Char → Option SourceError}
      (hfault : fault word = some (.badNumeral word)) : ∃ e, words.findSome? fault = some e :=
    Option.isSome_iff_exists.mp <| List.findSome?_isSome_iff.mpr
      ⟨word, hmem, by rw [hfault, Option.isSome_some]⟩
  obtain ⟨e, he⟩ := reported ((unread?_eq_some_iff (h word hmem)).mpr ⟨hword, rfl⟩)
  obtain ⟨e', he'⟩ := reported ((complaint?_eq_some_iff (h word hmem)).mpr (.badNumeral hword))
  exact ⟨⟨e, by rw [readFirst, he]⟩, ⟨e', by rw [wordByWord, he']⟩⟩

/-- Both accept the same words. -/
theorem readFirst_eq_ok_iff (h : ∀ v ∈ words, IsSolid v) {bytes : List UInt8} :
    readFirst words = .ok bytes ↔ wordByWord words = .ok bytes := by
  by_cases hall : ∀ v ∈ words, IsNumeral v
  · rw [readFirst_of_numerals h hall]
  · obtain ⟨word, hmem, hword⟩ : ∃ word ∈ words, ¬ IsNumeral word := by simpa using hall
    obtain ⟨⟨e, he⟩, ⟨e', he'⟩⟩ := exists_error_of_not_numeral h hmem hword
    rw [he, he']
    exact iff_of_false (by rintro ⟨⟩) (by rintro ⟨⟩)

/-- With one bad word at most it makes no difference either. -/
theorem readFirst_of_pairwise (h : ∀ v ∈ words, IsSolid v)
    (hone : words.Pairwise fun v w => IsInstructionWord v ∨ IsInstructionWord w) :
    readFirst words = wordByWord words := by
  by_cases hall : ∀ v ∈ words, IsNumeral v
  · exact readFirst_of_numerals h hall
  · obtain ⟨word, hmem, hword⟩ : ∃ word ∈ words, ¬ IsNumeral word := by simpa using hall
    obtain ⟨before, after, rfl⟩ := List.append_of_mem hmem
    have hbad : ¬ IsInstructionWord word := fun ⟨n, hn, _⟩ => hword ⟨n, hn⟩
    have hbefore : ∀ v ∈ before, IsInstructionWord v := fun v hv =>
      ((List.pairwise_append.mp hone).2.2 v hv word List.mem_cons_self).resolve_right hbad
    -- the bad word is the first of either kind
    have hleft : readFirst (before ++ word :: after) = .error (.badNumeral word) :=
      (readFirst_eq_error_iff h).mpr <| Or.inl ⟨word, ⟨before, after, rfl,
        fun v hv => not_not.mpr ((hbefore v hv).imp fun _ => And.left), hword⟩, rfl⟩
    have hright : wordByWord (before ++ word :: after) = .error (.badNumeral word) :=
      (wordByWord_eq_error_iff h).mpr ⟨word, ⟨before, after, rfl,
        fun v hv => not_not.mpr (hbefore v hv), hbad⟩, .badNumeral hword⟩
    rw [hleft, hright]

/-! ## Comments -/

/-- A text without its comments, which begin with a semicolon and last to the end of the line; the
text itself begins in a comment or not. -/
def dropComments : Bool → List Char → List Char
  | _, [] => []
  | inComment, c :: rest =>
    if c = '\n' then '\n' :: dropComments false rest
    else if inComment || c = ';' then dropComments true rest
    else c :: dropComments false rest

def withoutComments (cs : List Char) : List Char := dropComments false cs

theorem semicolon_not_mem_dropComments (inComment : Bool) (cs : List Char) :
    ';' ∉ dropComments inComment cs := by
  fun_induction dropComments inComment cs with
  | case1 => exact List.not_mem_nil
  | case2 _ _ ih => simpa using ih
  | case3 _ _ _ _ _ ih => exact ih
  | case4 _ _ _ _ hc ih =>
    rw [Bool.or_eq_true, not_or, decide_eq_true_eq] at hc
    exact List.not_mem_cons_of_ne_of_not_mem (Ne.symm hc.2) ih

theorem withoutComments_of_none {cs : List Char} (h : ';' ∉ cs) : withoutComments cs = cs := by
  rw [withoutComments]
  induction cs with
  | nil => rfl
  | cons c rest ih =>
    obtain ⟨hc, hrest⟩ := not_or.mp (List.mem_cons.not.mp h)
    rw [dropComments, ih hrest]
    by_cases hend : c = '\n'
    · rw [if_pos hend, hend]
    · rw [if_neg hend, Bool.false_or, if_neg (by simpa using Ne.symm hc)]

/-- Dropping the comments of a text is dropping the comment of each line. -/
theorem dropComments_eq (cs : List Char) : ∃ line lines, splitAt '\n' cs = line :: lines ∧
    dropComments false cs = uncommented line ++ lines.flatMap (fun l => '\n' :: uncommented l) ∧
      dropComments true cs = lines.flatMap (fun l => '\n' :: uncommented l) := by
  induction cs with
  | nil => exact ⟨[], [], rfl, rfl, rfl⟩
  | cons c rest ih =>
    obtain ⟨line, lines, hsplit, hout, hin⟩ := ih
    by_cases hend : c = '\n'
    · refine ⟨[], line :: lines, ?_, ?_, ?_⟩
      · rw [splitAt, if_pos hend, hsplit]
      · rw [dropComments, if_pos hend, hout]
        rfl
      · rw [dropComments, if_pos hend, hout]
        rfl
    · refine ⟨c :: line, lines, ?_, ?_, ?_⟩
      · rw [splitAt, if_neg hend, hsplit]
      · rw [dropComments, if_neg hend]
        by_cases hmark : c = ';'
        · simp [hmark, hin, uncommented]
        · simp [hmark, hout, uncommented]
      · rw [dropComments, if_neg hend, Bool.true_or, if_pos rfl, hin]

theorem fields_lines (cs : List Char) (lines : List (List Char)) :
    fields isBlank (cs ++ lines.flatMap fun l => '\n' :: uncommented l) =
      fields isBlank cs ++ lines.flatMap fun l => fields isBlank (uncommented l) := by
  have hend : isBlank '\n' = true := by decide
  induction lines generalizing cs with
  | nil => rw [List.flatMap_nil, List.flatMap_nil, List.append_nil, List.append_nil]
  | cons l lines ih =>
    rw [List.flatMap_cons, List.flatMap_cons, List.cons_append, fields_append hend, ih]

/-- The words of a listing are those of its text without comments. -/
theorem listingWords_eq (cs : List Char) :
    listingWords cs = fields isBlank (withoutComments cs) := by
  obtain ⟨line, lines, hsplit, hout, -⟩ := dropComments_eq cs
  rw [listingWords, hsplit, List.flatMap_cons, withoutComments, hout, fields_lines]

/-- The characters that separate for the one reader alone. -/
theorem inlineWords_eq {cs : List Char} (hcomma : ',' ∉ cs) (hsemicolon : ';' ∉ cs) :
    inlineWords cs = fields isBlank cs := by
  refine fields_congr fun c hc => ?_
  have hne : c ≠ ',' := ne_of_mem_of_not_mem hc hcomma
  have hne' : c ≠ ';' := ne_of_mem_of_not_mem hc hsemicolon
  rw [isSeparator, beq_eq_false_iff_ne.mpr hne, beq_eq_false_iff_ne.mpr hne', Bool.or_false,
    Bool.or_false]

/-! ## The two ways compared -/

theorem ofListing_eq_readFirst (cs : List Char) :
    ofListing cs = readFirst (fields isBlank (withoutComments cs)) := by
  rw [ofListing_eq, listingWords_eq]

theorem ofInline_eq_wordByWord {cs : List Char} (hcomma : ',' ∉ withoutComments cs) :
    ofInline (withoutComments cs) = wordByWord (fields isBlank (withoutComments cs)) := by
  rw [ofInline_eq, inlineWords_eq hcomma (semicolon_not_mem_dropComments false cs)]

/-- No word of a text has a blank in it. -/
theorem isSolid_fields (cs : List Char) : ∀ v ∈ fields isBlank cs, IsSolid v :=
  fun v hv => ((separated_fields isBlank cs).2 v hv).inside

/-- Without commas and semicolons, both readers accept the same texts and make the same of them. -/
theorem ofListing_eq_ok_iff {cs : List Char} (hcomma : ',' ∉ cs) (hsemicolon : ';' ∉ cs)
    {bytes : List UInt8} : ofListing cs = .ok bytes ↔ ofInline cs = .ok bytes := by
  have hsame := withoutComments_of_none hsemicolon
  have hcomma' : ',' ∉ withoutComments cs := by rwa [hsame]
  have hinline := ofInline_eq_wordByWord hcomma'
  rw [hsame] at hinline
  rw [ofListing_eq_readFirst, hsame, hinline, readFirst_eq_ok_iff (isSolid_fields cs)]

/-- No numeral has a comma in it. -/
theorem not_isNumeral_of_comma (h : ',' ∈ word) : ¬ IsNumeral word := by
  rintro ⟨n, hn⟩
  exact (hn.inside ',' h).2.1 rfl

/-- **A listing is its text without comments, read as an inline program.** Comments are never
looked at. A comma outside of them is an error in a listing. Where there is none, both readers find
the same words, accept the same programs and make the same image of them. Of the words they refuse,
the inline reader names the first that is no instruction word, and the reader of listings the first
that is no numeral, or if there is none, the first whose number is out of range. So they can differ
only where two words are bad. -/
theorem listing_is_inline (cs : List Char) :
    (∀ cs', withoutComments cs' = withoutComments cs → ofListing cs' = ofListing cs) ∧
    ∃ words, Separated isBlank words (withoutComments cs) ∧ (∀ word ∈ words, IsField isBlank word) ∧
      (',' ∈ withoutComments cs → ∃ e, ofListing cs = .error e) ∧
      (',' ∉ withoutComments cs →
        (∀ bytes, ofListing cs = .ok bytes ↔ ofInline (withoutComments cs) = .ok bytes) ∧
        (∀ e, ofInline (withoutComments cs) = .error e ↔
          ∃ word, IsFirst (¬ IsInstructionWord ·) words word ∧ Complaint word e) ∧
        (∀ e, ofListing cs = .error e ↔
          (∃ word, IsFirst (¬ IsNumeral ·) words word ∧ e = .badNumeral word) ∨
            (∀ v ∈ words, IsNumeral v) ∧
              ∃ word, IsFirst (¬ IsInstructionWord ·) words word ∧
                ∃ n, Written word n ∧ ¬ IsWord n ∧ e = .wordOutOfRange n) ∧
        (words.Pairwise (fun v w => IsInstructionWord v ∨ IsInstructionWord w) →
          ofListing cs = ofInline (withoutComments cs))) := by
  obtain ⟨hsep, hwords⟩ := separated_fields isBlank (withoutComments cs)
  have hsolid := isSolid_fields (withoutComments cs)
  rw [ofListing_eq_readFirst]
  refine ⟨fun cs' hcs' => ?_, _, hsep, hwords, fun hcomma => ?_, fun hcomma => ?_⟩
  · rw [ofListing_eq_readFirst, hcs']
  · obtain ⟨word, hmem, hword⟩ := hsep.exists_mem hcomma (by decide)
    exact (exists_error_of_not_numeral hsolid hmem (not_isNumeral_of_comma hword)).1
  · rw [ofInline_eq_wordByWord hcomma]
    exact ⟨fun _ => readFirst_eq_ok_iff hsolid, fun _ => wordByWord_eq_error_iff hsolid,
      fun _ => readFirst_eq_error_iff hsolid, readFirst_of_pairwise hsolid⟩

/-- In a comment anything may stand, also a comma. -/
theorem listing_is_inline_commented :
    ',' ∉ withoutComments "6005 ; V0 = 5, then\n1200; stop".toList ∧
      ofListing "6005 ; V0 = 5, then\n1200; stop".toList = .ok [0x60, 0x05, 0x12, 0x00] := by
  obtain ⟨-, words, -, -, -, hagree⟩ := listing_is_inline "6005 ; V0 = 5, then\n1200; stop".toList
  have hcomma : ',' ∉ withoutComments "6005 ; V0 = 5, then\n1200; stop".toList := by decide
  obtain ⟨haccept, -⟩ := hagree hcomma
  exact ⟨hcomma, (haccept _).mpr (by decide)⟩

/-! ## Programs however they are written -/

/-- A numeral stands in a text as one word. -/
theorem isField_of_written {n : Int} (h : Written word n) : IsField isSeparator word := by
  refine ⟨h.ne_nil, ?_⟩
  intro c hc
  obtain ⟨hblank, hcomma, hsemicolon⟩ := h.inside c hc
  simp [isSeparator, hblank, hcomma, hsemicolon]

theorem wordByWord_written {ws : List Int} (hws : ∀ w ∈ ws, IsWord w)
    (hwords : List.Forall₂ Written words ws) : wordByWord words = .ok (image ws) := by
  have hread : words.findSome? complaint? = none ∧ words.map valueOf = ws := by
    induction hwords with
    | nil => exact ⟨rfl, rfl⟩
    | @cons word w words ws hword _ ih =>
      obtain ⟨hw, hws⟩ := List.forall_mem_cons.mp hws
      obtain ⟨hfirst, hvalues⟩ := ih hws
      have hsolid : IsSolid word := fun c hc => (hword.inside c hc).1
      have hhex : hex? word = some w := (hex?_eq_some_iff_of_word hsolid).mpr hword
      have hgood : complaint? word = none := (complaint?_eq_none_iff hsolid).mpr ⟨w, hword, hw⟩
      have hvalue : valueOf word = w := by rw [valueOf, hhex, Option.getD_some]
      rw [List.findSome?_cons, hgood, List.map_cons, hvalue, hvalues]
      exact ⟨hfirst, rfl⟩
  obtain ⟨hfirst, hvalues⟩ := hread
  rw [wordByWord, hfirst, hvalues]

/-- **However the words of a program are written and set apart, they are read.** Each word may be
written as any numeral for it, and any blanks, commas and semicolons may stand around the words, as
long as there is one at least between two of them. The image is the one that the words themselves
have. -/
theorem ofInline_written {ws : List Int} {cs : List Char} (hws : ∀ w ∈ ws, IsWord w)
    (hwords : List.Forall₂ Written words ws) (hcs : Separated isSeparator words cs) :
    ∃ bytes, ofWords ws = .ok bytes ∧ ofInline cs = .ok bytes := by
  have hfields : ∀ word ∈ words, IsField isSeparator word := by
    clear hws hcs
    induction hwords with
    | nil => exact List.forall_mem_nil _
    | cons hword _ ih => exact List.forall_mem_cons.mpr ⟨isField_of_written hword, ih⟩
  refine ⟨image ws, ofWords_of_isWord hws, ?_⟩
  rw [ofInline_eq, inlineWords, hcs.fields_eq hfields, wordByWord_written hws hwords]

/-- A mark with a gap behind it, digits of other scripts, leading zeros and a sign. -/
theorem ofInline_written_mixed : ∃ bytes, ofWords [0xA050, 0x0012] = .ok bytes ∧
    ofInline ";0x_a\uFF10_5\u0660,\u3000+0012 ;".toList = .ok bytes := by
  have hfirst : Written ['0', 'x', '_', 'a', '\uFF10', '_', '5', '\u0660'] 0xA050 :=
    .mk .none (.gap (z := '0') (x := 'x') (by decide) (.inl rfl)) <|
      .mk (.lower (d := 10) (by decide) (by decide)) (by decide) <|
        .digit (d := 0) (.decimal (by decide)) (by decide) <|
          .gap (d := 5) (.decimal (by decide)) (by decide) <|
            .digit (d := 0) (.decimal (by decide)) (by decide) .nil
  have hsecond : Written ['+', '0', '0', '1', '2'] 0x0012 :=
    .mk .plus .none <|
      .mk (d := 0) (.decimal (by decide)) (by decide) <|
        .digit (d := 0) (.decimal (by decide)) (by decide) <|
          .digit (d := 1) (.decimal (by decide)) (by decide) <|
            .digit (d := 2) (.decimal (by decide)) (by decide) .nil
  have hsep : Separated isSeparator
      [['0', 'x', '_', 'a', '\uFF10', '_', '5', '\u0660'], ['+', '0', '0', '1', '2']]
      ";0x_a\uFF10_5\u0660,\u3000+0012 ;".toList :=
    (fields_eq_iff.mp (by decide)).1
  exact ofInline_written (by decide) (.cons hfirst (.cons hsecond .nil)) hsep

end Chip8.Program
