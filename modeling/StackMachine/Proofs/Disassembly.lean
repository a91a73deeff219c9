import Mathlib
import StackMachine.Proofs.Concatenation
import StackMachine.Proofs.LiteralFrames
import StackMachine.Proofs.Literals
import StackMachine.Proofs.NumberTexts

/-!
# Disassembled programs assemble again

The text of a program names its opcodes, its registers and its values. For values of the exact kinds,
integers and decimals, every part of such a text is found again by the reader that looks for it: the
lines, the opcode before the space, the kind before the parenthesis and the number inside. So a program
that was assembled from any source is assembled again from its own text, with nothing changed.

* **`Text.IsInk`**: the characters that instructions are written with, apart from the one space.
* **`Value.parse_literal`**: the literal of an exact value is read as that value.
* **`Assembly.readInstruction_text`**: the text of an instruction is read as that instruction.
* **`Assembly.assembleChars_disassemble`**: so is the text of a program, line by line.
* **`disassembly_round_trip`**: the headline.
-/

namespace StackMachine

namespace Text

/-! ## Ink -/

/-- A printable ASCII character that is no space and starts no comment. -/
def IsInk (c : Char) : Prop :=
  0x21 ≤ c.toNat ∧ c.toNat ≤ 0x7E ∧ c.toNat ≠ 0x3B

instance (c : Char) : Decidable (IsInk c) :=
  inferInstanceAs (Decidable (_ ∧ _))

theorem IsInk.isBlank {c : Char} (h : IsInk c) : isBlank c = false :=
  isBlank_of_ascii h.1 h.2.1

theorem IsInk.isLineBreak {c : Char} (h : IsInk c) : isLineBreak c = false := by
  unfold IsInk at h
  simp only [Text.isLineBreak, Bool.or_eq_false_iff, Bool.and_eq_false_iff, decide_eq_false_iff_not,
    beq_eq_false_iff_ne]
  omega

theorem IsInk.ne {c d : Char} (h : IsInk c) (hd : ¬ IsInk d) : c ≠ d := by
  rintro rfl
  exact hd h

theorem isInk_of_isNumberChar {c : Char} (h : Decimal.IsNumberChar c) : IsInk c := by
  rcases h with h | h
  · have hc := toNat_of_isDigit h
    unfold IsInk
    omega
  · simp only [List.mem_cons, List.not_mem_nil, or_false] at h
    rcases h with rfl | rfl | rfl | rfl <;> decide

theorem IsRow.isInk {cs : List Char} (h : IsRow cs) : ∀ c ∈ cs, IsInk c :=
  fun c hc => isInk_of_isNumberChar (Or.inl (h c hc))

/-- A text without blanks is not trimmed. -/
theorem trim_of_ink {cs : List Char} (h : ∀ c ∈ cs, IsInk c) : trim cs = cs :=
  (isTrimmed_of_forall fun c hc => (h c hc).isBlank).trim_eq

end Text

open Text

/-! ## Literals -/

namespace Kind

/-- The names of the kinds are ink, and letters or digits, so that none of their characters is a
bracket. -/
theorem isInk_name (k : Kind) : ∀ c ∈ k.name.toList, IsInk c ∧ c.isAlphanum = true := by
  have hall : k.name.toList.all (fun c => decide (IsInk c ∧ c.isAlphanum = true)) = true := by
    cases k with
    | integer k => cases k <;> decide
    | floating k => cases k <;> decide
    | bigdecimal => decide
  exact fun c hc => of_decide_eq_true (List.all_eq_true.mp hall c hc)

theorem name_eq_cons (k : Kind) : ∃ c cs, k.name.toList = c :: cs ∧ c.isAlpha = true := by
  cases k with
  | integer k => cases k <;> exact ⟨_, _, rfl, rfl⟩
  | floating k => cases k <;> exact ⟨_, _, rfl, rfl⟩
  | bigdecimal => exact ⟨_, _, rfl, rfl⟩

/-- The name of a kind in lower case is the one under which it is looked up. -/
theorem ofName?_name (k : Kind) : ofName? (k.name.toList.map Char.toLower) = some k := by
  cases k with
  | integer k => cases k <;> decide
  | floating k => cases k <;> decide
  | bigdecimal => decide

end Kind

namespace Value

/-- A literal is ink if its number text is: the name of a kind and the parentheses are. -/
theorem isInk_literalText (k : Kind) {body : List Char} (hbody : ∀ c ∈ body, IsInk c) :
    ∀ c ∈ k.name.toList ++ '(' :: (body ++ [')']), IsInk c := by
  intro c hc
  simp only [List.mem_append, List.mem_cons, List.not_mem_nil, or_false] at hc
  rcases hc with hc | rfl | hc | rfl
  · exact (k.isInk_name c hc).1
  · decide
  · exact hbody c hc
  · decide

/-- A literal is taken apart into its kind and its number text. The name of the kind has no
bracket in it, so the first one is where the number text starts. -/
theorem splitLiteral?_append (k : Kind) {body : List Char} (hbody : ∀ c ∈ body, IsInk c) :
    splitLiteral? (k.name.toList ++ '(' :: (body ++ [')'])) = some ⟨k.name.toList, body⟩ := by
  have hframed : Framed k.name.toList body
      ([] ++ k.name.toList ++ [] ++ '(' :: ([] ++ body ++ [] ++ [')'])) := by
    refine .mk ?_ (fun c hc => (k.isInk_name c hc).2) k.name_eq_cons ?_ ?_
    · simp [IsPadding]
    · exact isTrimmed_of_forall fun c hc => (hbody c hc).isBlank
    · exact fun hmem => (hbody _ hmem).ne (by decide) rfl
  simpa using hframed.splitLiteral?

/-- The text of an integer is read as that integer. The bound on the digits of a text is far above
those of any kind. -/
theorem readInteger_intText {k : IntKind} {n : Int} (h : k.InRange n) :
    readInteger k (Kind.intText n) = .ok (ofInt k n h) := by
  obtain ⟨ds, hspan, hlength, hvalue⟩ := Kind.spanInteger?_intText n
  -- an integer of a kind has ten digits at most
  have hshort : ds.length ≤ 10 := by
    rw [hlength, digitCount, Nat.length_toDigits_le_iff (by decide) (by decide)]
    exact Nat.lt_of_le_of_lt h.natAbs_le (by decide)
  have hlimit : ds.length ≤ digitLimit := hshort.trans (by decide)
  exact readInteger_eq_ok_iff.mpr ⟨_, ds, hspan, hlimit, n, h, hvalue.symm, rfl⟩

theorem eq_finite_of_ofNumeral? {d : Decimal} {n : Numeral} (h : Decimal.ofNumeral? n = some d) :
    d = .finite n.negative n.coefficient n.exponent := by
  unfold Decimal.ofNumeral? at h
  split at h
  · exact (Option.some.inj h).symm
  · cases h

/-- The text of a decimal within the bounds is read as that decimal, with its exponent and its
sign, also if it is zero. -/
theorem readDecimal_text {d : Decimal} {n : Numeral} (h : Decimal.ofNumeral? n = some d) :
    readDecimal (Decimal.text d) = .ok ⟨.bigdecimal, d⟩ := by
  have hd := eq_finite_of_ofNumeral? h
  rw [hd] at h ⊢
  rw [readDecimal, Decimal.readDecimal?_text]
  simp only [h]

/-- What a literal of the exact kinds can stand for: any integer of its kind, and any decimal within the
bounds of numerals. -/
inductive IsExact : Value → Prop where
  | integer (k : IntKind) (n : Int) (h : k.InRange n) : IsExact (ofInt k n h)
  | decimal (d : Decimal) (n : Numeral) (h : Decimal.ofNumeral? n = some d) :
      IsExact ⟨.bigdecimal, d⟩

theorem toList_literal (v : Value) :
    v.literal.toList = v.kind.name.toList ++ '(' :: (v.kind.numberText v.number ++ [')']) := by
  simp [literal, text]

/-- The text of an exact value is ink. Integers and decimals are printed with the characters of
numbers only. -/
theorem IsExact.isInk {v : Value} (h : v.IsExact) : ∀ c ∈ v.kind.numberText v.number, IsInk c := by
  cases h with
  | integer k n h => exact fun c hc => isInk_of_isNumberChar (Kind.isNumberChar_intText n c hc)
  | decimal d n h =>
    obtain rfl := eq_finite_of_ofNumeral? h
    exact fun c hc => isInk_of_isNumberChar (Decimal.isNumberChar_finite _ _ _ c hc)

theorem IsExact.isInk_literal {v : Value} (h : v.IsExact) : ∀ c ∈ v.literal.toList, IsInk c := by
  rw [toList_literal]
  exact isInk_literalText v.kind h.isInk

/-- **The literal of an exact value is read as that value.** One case for each way to be exact. -/
theorem parse_literal {v : Value} (h : v.IsExact) : parse v.literal.toList = .ok v := by
  rw [toList_literal, parse, splitLiteral?_append v.kind h.isInk]
  simp only [Kind.ofName?_name]
  cases h with
  | integer k n h => exact readInteger_intText h
  | decimal d n h =>
    show (readDecimal (Decimal.text d)).mapError _ = _
    rw [readDecimal_text h]
    rfl

/-! Conversely, what is read as a literal of an exact kind is an exact value. -/

theorem isExact_of_readInteger {k : IntKind} {body : List Char} {v : Value}
    (h : readInteger k body = .ok v) : v.IsExact := by
  obtain ⟨_, _, -, -, n, hn, -, rfl⟩ := readInteger_eq_ok_iff.mp h
  exact .integer k n hn

theorem isFloating_of_readFloating {k : FloatKind} {body : List Char} {v : Value}
    (h : readFloating k body = .ok v) : v.kind.isFloating = true := by
  unfold readFloating at h
  split at h
  · cases h
  · split at h
    · cases h; rfl
    · split at h
      · cases h
      · cases h; rfl
    · cases h

/-- A decimal that is read is within the bounds, as the reader refuses all others. -/
theorem isExact_of_readDecimal {body : List Char} {v : Value} (h : readDecimal body = .ok v) :
    v.IsExact := by
  unfold readDecimal at h
  split at h
  · cases h
  · split at h
    · cases h
    · next n d hd =>
      cases h
      exact .decimal d _ hd
  · cases h

/-- **What is read is exact**, unless it is of a binary format. So an assembled program without
such values has exact ones only. -/
theorem isExact_of_parse {text : List Char} {v : Value} (h : parse text = .ok v)
    (hkind : v.kind.isFloating = false) : v.IsExact := by
  unfold parse at h
  split at h
  · cases h
  · split at h
    · cases h
    · exact isExact_of_readInteger h
    · rw [isFloating_of_readFloating (eq_ok_of_mapError h)] at hkind
      cases hkind
    · exact isExact_of_readDecimal (eq_ok_of_mapError h)

end Value

/-! ## Lines -/

namespace Opcode

theorem isInk_name (op : Opcode) : ∀ c ∈ op.name.toList, IsInk c := by
  have hall : op.name.toList.all (fun c => decide (IsInk c)) = true := by
    cases op with
    | arith op => cases op <;> decide
    | noop | push | pop | dump | clear | dup | swap | assert | load | store | print | exit => decide
  exact fun c hc => of_decide_eq_true (List.all_eq_true.mp hall c hc)

theorem ofName?_name (op : Opcode) : ofName? (op.name.toList.map Char.toLower) = some op := by
  cases op with
  | arith op => cases op <;> decide
  | noop | push | pop | dump | clear | dup | swap | assert | load | store | print | exit => decide

theorem name_ne_nil (op : Opcode) : op.name.toList ≠ [] := by
  cases op with
  | arith op => cases op <;> decide
  | noop | push | pop | dump | clear | dup | swap | assert | load | store | print | exit => decide

end Opcode

namespace Assembly

/-- A line as it is printed: ink and spaces, and no blank at its ends. -/
structure IsClean (line : List Char) : Prop where
  ne_nil : line ≠ []
  chars : ∀ c ∈ line, IsInk c ∨ c = ' '
  trim : trim line = line

/-- An opcode alone is a clean line, as its name is ink. -/
theorem isClean_name (op : Opcode) : IsClean op.name.toList :=
  ⟨op.name_ne_nil, fun c hc => Or.inl (op.isInk_name c hc), trim_of_ink op.isInk_name⟩

/-- So is an opcode with an operand, if the operand is ink: the only space is the one between
them. -/
theorem isClean_operand (op : Opcode) {text : List Char} (hne : text ≠ []) (hink : ∀ c ∈ text, IsInk c) :
    IsClean (op.name.toList ++ ' ' :: text) := by
  refine ⟨by simp, ?_, ?_⟩
  · intro c hc
    rcases List.mem_append.mp hc with hc | hc
    · exact Or.inl (op.isInk_name c hc)
    · rcases List.mem_cons.mp hc with rfl | hc
      · exact Or.inr rfl
      · exact Or.inl (hink c hc)
  · apply IsTrimmed.trim_eq
    constructor
    · intro c hc
      rw [List.head?_append_of_ne_nil _ op.name_ne_nil] at hc
      exact (op.isInk_name c (List.mem_of_mem_head? hc)).isBlank
    · intro c hc
      -- the operand is not empty, so the space is not at the end
      have hlast : (op.name.toList ++ ' ' :: text).getLast? = text.getLast? := by
        rw [List.append_cons, List.getLast?_append_of_ne_nil _ hne]
      rw [hlast] at hc
      exact (hink c (List.mem_of_mem_getLast? hc)).isBlank

/-- A line without comments and tabs, and without blanks at its ends, is left alone. Each of the
three steps of cleaning does nothing. -/
theorem cleanLine_eq_self {line : List Char} (hchar : ∀ c ∈ line, c ≠ ';' ∧ c ≠ '\t')
    (htrim : trim line = line) : cleanLine line = line := by
  have hcomment : line.takeWhile (· ≠ ';') = line := by
    have htake : (line ++ []).takeWhile (· ≠ ';') = line ++ [] :=
      List.takeWhile_append_of_pos fun c hc => decide_eq_true (hchar c hc).1
    rwa [List.append_nil] at htake
  have htabs : line.map (fun c => if c = '\t' then ' ' else c) = line := by
    conv_rhs => rw [← List.map_id line]
    apply List.map_congr_left
    intro c hc
    rw [if_neg (hchar c hc).2, id]
  rw [cleanLine, hcomment, htabs, htrim]

/-- A clean line is left alone by cleaning. -/
theorem cleanLine_of_isClean {line : List Char} (h : IsClean line) : cleanLine line = line := by
  apply cleanLine_eq_self _ h.trim
  intro c hc
  rcases h.chars c hc with hink | rfl
  · exact ⟨hink.ne (by decide), hink.ne (by decide)⟩
  · exact ⟨by decide, by decide⟩

/-- A text without line breaks is one line. Induction over the text, which must not be empty,
since the empty text has no line. -/
theorem splitLines_of_unbroken {cs : List Char} (hne : cs ≠ [])
    (h : ∀ c ∈ cs, isLineBreak c = false) : splitLines cs = [cs] := by
  induction cs with
  | nil => exact absurd rfl hne
  | cons c cs ih =>
    have hc := h c List.mem_cons_self
    have hreturn : c ≠ '\r' := ne_of_isLineBreak hc isLineBreak_return
    rw [splitLines_cons fun _ hc' => absurd hc' hreturn, hc]
    cases cs with
    | nil => rfl
    | cons d ds =>
      rw [ih (by simp) fun x hx => h x (List.mem_cons_of_mem c hx)]
      rfl

/-- A clean line is assembled as it is read. There is one line, cleaning leaves it alone, and it
is not empty. -/
theorem assembleChars_of_isClean {line : List Char} (h : IsClean line) :
    assembleChars line
      = ((readInstruction line).mapError (·.map fun e => ⟨1, .line e⟩)).map fun i => [i] := by
  have hbreaks : ∀ c ∈ line, isLineBreak c = false := by
    intro c hc
    rcases h.chars c hc with hink | rfl
    · exact hink.isLineBreak
    · decide
  have hsome : line.isEmpty = false := by simpa using h.ne_nil
  rw [assembleChars, splitLines_of_unbroken h.ne_nil hbreaks, assembleLines_cons,
    cleanLine_of_isClean h, hsome]
  cases readInstruction line <;> rfl

/-! ## Instructions -/

/-- A line is read in parts: the opcode up to the first space, and the operand behind it. The
hypotheses are the results of the parts, so the two lemmas below only have to compute them. -/
theorem readInstruction_of_parts {line text : List Char} {op : Opcode} {operand : Option Operand}
    {i : Instruction} (hclean : IsClean line) (hname : line.takeWhile (· ≠ ' ') = op.name.toList)
    (hrest : trim (line.drop (op.name.toList.length + 1)) = text)
    (hread : readOperand op text = .ok operand) (hmake : Instruction.make op operand = .ok i) :
    readInstruction line = .ok i := by
  simp only [readInstruction, hclean.trim, hname, hrest, Opcode.ofName?_name, hread]
  show (Instruction.make op operand).mapError _ = _
  rw [hmake]
  rfl

theorem takeWhile_name (op : Opcode) (rest : List Char) :
    (op.name.toList ++ rest).takeWhile (· ≠ ' ') = op.name.toList ++ rest.takeWhile (· ≠ ' ') := by
  apply List.takeWhile_append_of_pos
  intro c hc
  exact decide_eq_true ((op.isInk_name c hc).ne (by decide))

/-- An opcode without an operand, for which an empty text is read. -/
theorem readInstruction_name {op : Opcode} {i : Instruction}
    (hmake : Instruction.make op none = .ok i) : readInstruction op.name.toList = .ok i := by
  have hname := takeWhile_name op []
  rw [List.append_nil, List.takeWhile_nil, List.append_nil] at hname
  have hread : readOperand op [] = .ok none := rfl
  refine readInstruction_of_parts (isClean_name op) hname ?_ hread hmake
  rw [List.drop_eq_nil_of_le (Nat.le_succ _)]
  rfl

/-- An opcode with an operand, whose text is not empty and has no blanks to trim. -/
theorem readInstruction_operand {op : Opcode} {text : List Char} {operand : Option Operand}
    {i : Instruction} (hne : text ≠ []) (hink : ∀ c ∈ text, IsInk c)
    (hread : readOperand op text = .ok operand) (hmake : Instruction.make op operand = .ok i) :
    readInstruction (op.name.toList ++ ' ' :: text) = .ok i := by
  have hname := takeWhile_name op (' ' :: text)
  rw [List.takeWhile_cons_of_neg (by decide), List.append_nil] at hname
  refine readInstruction_of_parts (isClean_operand op hne hink) hname ?_ hread hmake
  rw [List.append_cons, List.drop_left' (by simp), trim_of_ink hink]

/-- The index of a register reads back. It has two digits at most, far fewer than the limit on the
digits of a text. -/
theorem readIndex_toDigits (r : Register) : readIndex (Nat.toDigits 10 r.val) = .ok r.val := by
  obtain ⟨d, ds, hspan, hlength, hvalue⟩ := Numeral.exists_digits r.val
  have hshort : (d :: ds).length ≤ 2 := by
    rw [hlength, digitCount, Nat.length_toDigits_le_iff (by decide) (by decide)]
    exact Nat.lt_of_lt_of_le r.isLt (by decide)
  have hfew : ¬ digitLimit < (d :: ds).length := by
    unfold digitLimit
    omega
  simp only [readIndex, hspan]
  rw [Numeral.intOfDigits, if_neg hfew, hvalue]
  rfl

theorem readOperand_value {op : Opcode} {v : Value} (hop : op.takesValue = true) (hv : v.IsExact) :
    readOperand op v.literal.toList = .ok (some (.value v)) := by
  have hsome : v.literal.toList.isEmpty = false := by simp [Value.toList_literal]
  rw [readOperand, hsome, hop, Value.parse_literal hv]
  rfl

/-- An index is read for the opcodes that take a register. -/
theorem readOperand_register {op : Opcode} (hvalue : op.takesValue = false)
    (hop : op.takesRegister = true) (r : Register) :
    readOperand op (Nat.toDigits 10 r.val) = .ok (some (.index r.val)) := by
  have hsome : (Nat.toDigits 10 r.val).isEmpty = false := by simp
  rw [readOperand, hsome, hvalue, hop, readIndex_toDigits]
  rfl

theorem withRegister_index (op : Opcode) (build : Register → Instruction) (r : Register) :
    Instruction.withRegister op build (some (.index r.val)) = .ok (build r) := by
  have hrange : (0 : Int) ≤ r.val ∧ (r.val : Int).toNat < registerCount := by
    rw [Int.toNat_natCast]
    exact ⟨Int.natCast_nonneg _, r.isLt⟩
  have hregister : Instruction.register r.val = .ok r := by
    rw [Instruction.register, dif_pos hrange]
    rfl
  rw [Instruction.withRegister, hregister]
  rfl

/-- An instruction with a register is made again from its opcode and the index. -/
theorem make_index {i : Instruction} {r : Register} (h : i.register? = some r) :
    Instruction.make i.opcode (some (.index r.val)) = .ok i := by
  cases i with
  | load r' =>
    cases h
    exact withRegister_index .load .load r
  | store r' =>
    cases h
    exact withRegister_index .store .store r
  | noop | push v | pop | dump | clear | dup | swap | assert v | arith op | print | exit => cases h

theorem toList_text_value {i : Instruction} {v : Value} (hv : i.value? = some v) :
    i.text.toList = i.opcode.name.toList ++ ' ' :: v.literal.toList := by
  simp [Instruction.text, hv]

theorem toList_text_register {i : Instruction} {r : Register} (hv : i.value? = none)
    (hr : i.register? = some r) :
    i.text.toList = i.opcode.name.toList ++ ' ' :: Nat.toDigits 10 r.val := by
  simp [Instruction.text, hv, hr]

theorem toList_text_bare {i : Instruction} (hv : i.value? = none) (hr : i.register? = none) :
    i.text.toList = i.opcode.name.toList := by
  simp [Instruction.text, hv, hr]

/-- **The text of an instruction is a clean line that is read as that instruction**, if its value is
exact. -/
theorem readInstruction_text {i : Instruction} (h : ∀ v, i.value? = some v → v.IsExact) :
    IsClean i.text.toList ∧ readInstruction i.text.toList = .ok i := by
  -- by what the instruction takes: a value, a register or nothing
  cases i with
  | push v | assert v =>
    have hv := h v rfl
    have hne : v.literal.toList ≠ [] := by simp [Value.toList_literal]
    rw [toList_text_value rfl]
    exact ⟨isClean_operand _ hne hv.isInk_literal,
      readInstruction_operand hne hv.isInk_literal (readOperand_value rfl hv) rfl⟩
  | load r | store r =>
    have hne : Nat.toDigits 10 r.val ≠ [] := Nat.toDigits_ne_nil
    have hink := (isRow_toDigits r.val).isInk
    rw [toList_text_register rfl rfl]
    exact ⟨isClean_operand _ hne hink,
      readInstruction_operand hne hink (readOperand_register rfl rfl r) (make_index rfl)⟩
  | noop | pop | dump | clear | dup | swap | arith op | print | exit =>
    rw [toList_text_bare rfl rfl]
    exact ⟨isClean_name _, readInstruction_name rfl⟩

/-! ## Programs -/

/-- **The text of a program is assembled as that program**, if its values are exact. Induction
over the program: a line feed stands between an instruction and the others, and
`assembleChars_append` takes them apart there. -/
theorem assembleChars_disassemble {prog : Program}
    (h : ∀ i ∈ prog, ∀ v, i.value? = some v → v.IsExact) :
    assembleChars (disassemble prog).toList = .ok prog := by
  induction prog with
  | nil => rfl
  | cons i prog ih =>
    obtain ⟨hclean, hread⟩ := readInstruction_text (h i List.mem_cons_self)
    have hline : assembleChars i.text.toList = .ok [i] := by
      rw [assembleChars_of_isClean hclean, hread]
      rfl
    have hrest := ih fun j hj => h j (List.mem_cons_of_mem i hj)
    cases prog with
    | nil =>
      rw [disassemble, List.map_singleton, String.intercalate_singleton, hline]
    | cons j prog =>
      -- the line feed between two lines is a seam of the whole text
      have htext : (disassemble (i :: j :: prog)).toList
          = i.text.toList ++ '\n' :: (disassemble (j :: prog)).toList := by
        simp [disassemble, String.intercalate_cons_cons]
      rw [htext, assembleChars_append, hline, hrest]
      rfl

end Assembly

open Assembly

/-! ## The headline -/

/-- **Disassembly round-trips for the exact kinds.** If a source assembles to a program whose values are
all integers or decimals, the text of that program assembles to the same program: the same opcodes, the
same registers, and values of the same kind with the same integer, or the same sign, coefficient and
exponent. So a second pass of disassembly changes nothing. -/
theorem disassembly_round_trip {source : String} {prog : Program} (h : assemble source = .ok prog)
    (hkinds : ∀ i ∈ prog, ∀ v, i.value? = some v → v.kind.isInteger = true ∨ v.kind = .bigdecimal) :
    assemble (disassemble prog) = .ok prog
      ∧ (assemble (disassemble prog)).map disassemble = .ok (disassemble prog) := by
  have hexact : ∀ i ∈ prog, ∀ v, i.value? = some v → v.IsExact := by
    intro i hi v hv
    have hread : ∀ i ∈ prog, ∀ v, i.value? = some v → ∃ text, Value.parse text = .ok v :=
      forall_mem_of_assembleLines (fun _ _ hline _ => exists_parse_of_readInstruction hline) h
    obtain ⟨text, hparse⟩ := hread i hi v hv
    -- the values come from literals, and those of the exact kinds are read exactly
    apply Value.isExact_of_parse hparse
    rcases hkinds i hi v hv with hk | hk
    · cases hkind : v.kind with
      | integer k => rfl
      | floating k => rw [hkind] at hk; cases hk
      | bigdecimal => rfl
    · rw [hk]
      rfl
  have hsame : assemble (disassemble prog) = .ok prog := assembleChars_disassemble hexact
  refine ⟨hsame, ?_⟩
  rw [hsame]
  rfl

/-- A source in mixed case with a comment, underscores, a digit of another script, trailing zeros and a
register written with zeros in front. -/
theorem disassembly_round_trip_scientific :
    let source := "  PUSH BigDecimal( -٣_0.00e5 ) ; three\r\nstore\t007"
    let prog : Program := [.push ⟨.bigdecimal, .finite true 3000 3⟩, .store ⟨7, by decide⟩]
    assemble source = .ok prog ∧ disassemble prog = "push bigdecimal(-3.000E+6)\nstore 7"
      ∧ assemble "push bigdecimal(-3.000E+6)\nstore 7" = .ok prog := by
  intro source prog
  have hprog : assemble source = .ok prog := by
    unfold source prog
    decide +kernel
  have htext : disassemble prog = "push bigdecimal(-3.000E+6)\nstore 7" := by cbv
  have hkinds : ∀ i ∈ prog, ∀ v, i.value? = some v → v.kind.isInteger = true ∨ v.kind = .bigdecimal := by
    simp [prog, Instruction.value?]
  have hround := (disassembly_round_trip hprog hkinds).1
  rw [htext] at hround
  exact ⟨hprog, htext, hround⟩

end StackMachine
