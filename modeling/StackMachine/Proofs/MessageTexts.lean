import Mathlib
import StackMachine.Proofs.Disassembly
import StackMachine.Text.Plain

/-!
# The texts of assembly errors

An error quotes the source that it is about. What it quotes is written between marks, with all
control characters spelled out, or it is a number that could be read. So no message of the assembler
steers a terminal, whatever the source holds.

* **`Text.Visible`**: texts without control characters.
* **`Text.visible_quoted`**: quoted text is visible.
* **`Numeral.visible_of_read?`**: so is the text of a numeral.
* **`Assembly.visible_message`**: so is the message of an assembly error.
-/

namespace StackMachine

namespace Text

/-- A text without the control characters before the space. -/
def Visible (cs : List Char) : Prop :=
  ∀ c ∈ cs, 0x20 ≤ c.toNat

instance (cs : List Char) : Decidable (Visible cs) :=
  List.decidableBAll _ cs

@[simp] theorem visible_nil : Visible [] := by
  simp [Visible]

@[simp] theorem visible_cons {c : Char} {cs : List Char} :
    Visible (c :: cs) ↔ 0x20 ≤ c.toNat ∧ Visible cs := by
  simp [Visible]

@[simp] theorem visible_append {cs ds : List Char} :
    Visible (cs ++ ds) ↔ Visible cs ∧ Visible ds := by
  simp [Visible, or_imp, forall_and]

/-! ## Digits -/

/-- Digits up to base sixteen are visible. Induction on the number, digit by digit. -/
theorem visible_toDigits {base : Nat} (hlow : 1 < base) (hhigh : base ≤ 16) (n : Nat) :
    Visible (Nat.toDigits base n) := by
  have hdigit : ∀ d < 16, 0x20 ≤ (Nat.digitChar d).toNat := by decide
  induction n using Nat.strongRecOn with
  | ind n ih =>
    rw [Nat.toDigits_eq_if hlow]
    split
    · simpa using hdigit n (by omega)
    · have hmod : n % base < base := Nat.mod_lt n (by omega)
      have hdiv : n / base < n := Nat.div_lt_self (by omega) hlow
      simpa using ⟨ih _ hdiv, hdigit (n % base) (by omega)⟩

theorem toNat_of_digitValue? {c : Char} {d : Nat} (h : digitValue? c = some d) :
    0x20 ≤ c.toNat := by
  obtain ⟨base, hbase, hrange⟩ := exists_zero_of_digitValue? h
  have hle : ∀ base ∈ digitZeros, 0x20 ≤ base := by decide
  have := hle base hbase
  omega

/-- A text is visible if what stands behind its digits is. Induction over the text. -/
theorem visible_of_spanDigits {cs : List Char} (h : Visible (spanDigits cs).2) : Visible cs := by
  induction cs with
  | nil => exact visible_nil
  | cons c cs ih =>
    rw [spanDigits] at h
    cases hd : digitValue? c with
    | none =>
      rw [hd] at h
      exact h
    | some d =>
      rw [hd] at h
      exact visible_cons.mpr ⟨toNat_of_digitValue? hd, ih h⟩

/-! ## Quoted text -/

theorem toNat_of_isPrintable {c : Char} (h : isPrintable c = true) : 0x20 ≤ c.toNat := by
  obtain ⟨range, hrange, hc⟩ := List.any_eq_true.mp h
  have hlow : printableRanges.all (fun range => decide (0x20 ≤ range.1)) = true := by decide +kernel
  have := of_decide_eq_true (List.all_eq_true.mp hlow range hrange)
  simp only [Bool.and_eq_true, decide_eq_true_eq] at hc
  omega

theorem visible_hex (width n : Nat) : Visible (hex width n) := by
  have hzeros : Visible (List.replicate (width - (Nat.toDigits 16 n).length) '0') := by
    intro c hc
    rw [List.eq_of_mem_replicate hc]
    decide
  exact visible_append.mpr ⟨hzeros, visible_toDigits (by decide) (by decide) n⟩

/-- An escaped character is visible: it is printable, or written with a backslash and letters or
digits. -/
theorem visible_escape {mark : Char} (hmark : 0x20 ≤ mark.toNat) (c : Char) :
    Visible (escape mark c) := by
  -- the mark and the backslash, three control characters, printable ones, and codes
  unfold escape
  split
  · next h =>
    rcases h with rfl | rfl
    · simpa using hmark
    · decide
  split
  · decide
  split
  · decide
  split
  · decide
  split
  · next h => simpa using toNat_of_isPrintable h
  · unfold escapeByCode
    split
    · exact visible_append.mpr ⟨by decide, visible_hex _ _⟩
    split
    · exact visible_append.mpr ⟨by decide, visible_hex _ _⟩
    · exact visible_append.mpr ⟨by decide, visible_hex _ _⟩

/-- **Quoted text is visible**, whatever it quotes. Each character is escaped where it would not
be, and the quotation marks are visible themselves. -/
theorem visible_quoted (cs : List Char) : Visible (quoted cs).toList := by
  have hmark : 0x20 ≤ (quotationMark cs).toNat := by
    unfold quotationMark
    split <;> decide
  have hinside : Visible (cs.flatMap (escape (quotationMark cs))) := by
    intro d hd
    obtain ⟨c, -, hc⟩ := List.mem_flatMap.mp hd
    exact visible_escape hmark c d hc
  rw [quoted, String.toList_ofList]
  simp [hmark, hinside]

theorem visible_of_ink {cs : List Char} (h : ∀ c ∈ cs, IsInk c) : Visible cs :=
  fun c hc => Nat.le_of_succ_le (h c hc).1

theorem visible_toList_append {s t : String} (hs : Visible s.toList) (ht : Visible t.toList) :
    Visible (s ++ t).toList := by
  rw [String.toList_append]
  exact visible_append.mpr ⟨hs, ht⟩

end Text

open Text

/-! ## Numerals -/

namespace Numeral

theorem visible_of_spanSign {cs : List Char} (h : Visible (spanSign cs).2) : Visible cs := by
  unfold spanSign at h
  split at h
  · exact visible_cons.mpr ⟨by decide, h⟩
  · exact visible_cons.mpr ⟨by decide, h⟩
  · exact h

theorem visible_of_spanFraction {cs : List Char} (h : Visible (spanFraction cs).2) :
    Visible cs := by
  unfold spanFraction at h
  split at h
  · exact visible_cons.mpr ⟨by decide, visible_of_spanDigits h⟩
  · exact h

/-- What is read as an exponent is visible, or there is none. -/
theorem visible_of_readExponent? {cs : List Char} {e : Int} (h : readExponent? cs = some e) :
    Visible cs := by
  unfold readExponent? at h
  split at h
  · exact visible_nil
  · next c cs =>
    split at h
    · next hmark =>
      -- nothing is left behind the digits
      have hrest : Visible cs := by
        apply visible_of_spanSign
        apply visible_of_spanDigits
        dsimp only at h
        split at h
        · next hspan =>
          rw [hspan]
          exact visible_nil
        · cases h
      refine visible_cons.mpr ⟨?_, hrest⟩
      rcases hmark with rfl | rfl <;> decide
    · cases h

/-- **The text of a numeral is visible**: signs, digits, a point and the letter of the exponent.
The reader would have stopped at anything else. -/
theorem visible_of_read? {cs : List Char} {n : Numeral} (h : read? cs = some n) : Visible cs := by
  apply visible_of_spanSign
  apply visible_of_spanDigits
  apply visible_of_spanFraction
  simp only [read?] at h
  split at h
  · cases h
  · obtain ⟨e, he, -⟩ := Option.map_eq_some_iff.mp h
    exact visible_of_readExponent? he

/-- Underscores are visible too, so taking them out hides nothing. Induction on the recursion of
`joinGroups?`. -/
theorem visible_of_joinGroups? {afterDigit : Bool} {cs ds : List Char}
    (h : joinGroups? afterDigit cs = some ds) (hds : Visible ds) : Visible cs := by
  fun_induction joinGroups? afterDigit cs generalizing ds with
  | case1 => exact visible_nil
  | case2 => cases h
  | case3 afterDigit c cs hdigit ih =>
    obtain ⟨rest, hrest, rfl⟩ := Option.map_eq_some_iff.mp h
    obtain ⟨hc, hvisible⟩ := visible_cons.mp hds
    exact visible_cons.mpr ⟨by decide, visible_cons.mpr ⟨hc, ih hrest hvisible⟩⟩
  | case4 => cases h
  | case5 afterDigit c cs _ _ ih =>
    obtain ⟨rest, hrest, rfl⟩ := Option.map_eq_some_iff.mp h
    obtain ⟨hc, hvisible⟩ := visible_cons.mp hds
    exact visible_cons.mpr ⟨hc, ih hrest hvisible⟩

/-- The text of a floating-point number that is a numeral is visible, with its underscores. -/
theorem visible_of_readFloating? {cs : List Char} {n : Numeral}
    (h : readFloating? cs = some (.numeral n)) : Visible cs := by
  simp only [readFloating?] at h
  split at h
  · cases h
  split at h
  · cases h
  · obtain ⟨m, hm, -⟩ := Option.map_eq_some_iff.mp h
    obtain ⟨ds, hds, hread⟩ := Option.bind_eq_some_iff.mp hm
    exact visible_of_joinGroups? hds (visible_of_read? hread)

/-- A row of digits is read, or it is too long. It is never refused with a message. -/
theorem intOfDigits_ne_invalid {ε : Type} (negative : Bool) (ds : List Nat) (e : ε) :
    intOfDigits negative ds ≠ .error (.invalid e) := by
  intro h
  unfold intOfDigits at h
  split at h <;> cases h

end Numeral

/-! ## Literals -/

theorem Kind.visible_name (k : Kind) : Visible k.name.toList :=
  visible_of_ink fun c hc => (k.isInk_name c hc).1

theorem Kind.visible_intText (n : Int) : Visible (String.ofList (intText n)).toList := by
  rw [String.toList_ofList]
  exact visible_of_ink fun c hc => isInk_of_isNumberChar (isNumberChar_intText n c hc)

namespace Value

/-- What an error about a literal quotes is visible; so is the number that is out of range, if its
text is. -/
theorem LiteralError.visible_message {e : LiteralError}
    (h : ∀ literal, e = .floatOutOfRange literal → Visible literal) : Visible e.message.toList := by
  -- all but the last quote the text with marks
  cases e with
  | shape text => exact visible_toList_append (by decide) (visible_quoted text)
  | unknownKind tag => exact visible_toList_append (by decide) (visible_quoted tag)
  | malformed k literal =>
    show Visible ("malformed " ++ k.name ++ " literal: " ++ quoted literal).toList
    exact visible_toList_append (visible_toList_append
      (visible_toList_append (by decide) k.visible_name) (by decide)) (visible_quoted literal)
  | notFinite k literal =>
    show Visible (k.name ++ " literal must be finite: " ++ quoted literal).toList
    exact visible_toList_append (visible_toList_append k.visible_name (by decide))
      (visible_quoted literal)
  | integerOutOfRange k n =>
    show Visible (String.ofList (Kind.intText n) ++ (" out of range for " ++ k.name)).toList
    exact visible_toList_append (Kind.visible_intText n)
      (visible_toList_append (by decide) (Kind.integer k).visible_name)
  | floatOutOfRange literal =>
    refine visible_toList_append ?_ (by decide)
    rw [String.toList_ofList]
    exact h literal rfl

/-- A literal that is out of range was read as a numeral first, so its text is visible. -/
theorem visible_of_readFloating {k : FloatKind} {body : List Char} {literal : List Char}
    (h : readFloating k body = .error (.floatOutOfRange literal)) : Visible literal := by
  unfold readFloating at h
  split at h
  · cases h
  · next t ht =>
    cases t with
    | numeral n =>
      split at h
      · cases h
      · split at h
        · cases h
          exact Numeral.visible_of_readFloating? ht
        · cases h
      · cases h
    | infinity negative => cases h
    | nan => cases h

theorem readInteger_ne_floatOutOfRange (k : IntKind) (body literal : List Char) :
    readInteger k body ≠ .error (.invalid (.floatOutOfRange literal)) := by
  intro h
  unfold readInteger at h
  split at h
  · cases h
  · rcases error_or_of_bind h with h | ⟨n, -, h⟩
    · exact Numeral.intOfDigits_ne_invalid _ _ _ h
    · split at h <;> cases h

theorem readDecimal_ne_floatOutOfRange (body literal : List Char) :
    readDecimal body ≠ .error (.floatOutOfRange literal) := by
  intro h
  unfold readDecimal at h
  split at h
  · cases h
  · split at h <;> cases h
  · cases h

/-- Only a floating-point literal is quoted without marks, and it is one that was read. All other
messages quote the text with marks. -/
theorem visible_of_parse {text : List Char} {e : LiteralError}
    (h : parse text = .error (.invalid e)) : Visible e.message.toList := by
  refine LiteralError.visible_message fun literal he => ?_
  subst he
  unfold parse at h
  split at h
  · cases h
  split at h
  · cases h
  · exact absurd h (readInteger_ne_floatOutOfRange _ _ literal)
  · obtain ⟨e, he, heq⟩ := exists_error_of_mapError h
    cases heq
    exact visible_of_readFloating he
  · obtain ⟨e, he, heq⟩ := exists_error_of_mapError h
    cases heq
    exact absurd he (readDecimal_ne_floatOutOfRange _ literal)

end Value

/-! ## Lines -/

namespace Assembly

/-- The messages about an index quote it with marks, or they are those of a literal in its place.
-/
theorem visible_of_readIndex {text : List Char} {e : LineError}
    (h : readIndex text = .error (.invalid e)) : Visible e.message.toList := by
  unfold readIndex at h
  split at h
  · exact absurd h (Numeral.intOfDigits_ne_invalid _ _ _)
  split at h
  · split at h
    · next e' he =>
      obtain ⟨literal, rfl, rfl⟩ := ReadError.exists_of_map_eq_invalid (Except.error.inj h)
      exact Value.visible_of_parse he
    · split at h
      · cases h
      · cases h
        exact visible_toList_append (by decide) (visible_quoted text)
  · cases h
    exact visible_toList_append (by decide) (visible_quoted text)

/-- The messages about operands: those of literals, those of indices, and those that name an
opcode. -/
theorem visible_of_readOperand {op : Opcode} {text : List Char} {e : LineError}
    (h : readOperand op text = .error (.invalid e)) : Visible e.message.toList := by
  unfold readOperand at h
  split at h
  · cases h
  split at h
  · obtain ⟨e', he, heq⟩ := exists_error_of_mapError (map_eq_error_iff.mp h)
    obtain ⟨literal, rfl, rfl⟩ := ReadError.exists_of_map_eq_invalid heq
    exact Value.visible_of_parse he
  split at h
  · exact visible_of_readIndex (map_eq_error_iff.mp h)
  · cases h
    show Visible (op.name ++ " takes no operand, got " ++ quoted text).toList
    exact visible_toList_append
      (visible_toList_append (visible_of_ink op.isInk_name) (by decide)) (visible_quoted text)

/-- An operand that was read fits its opcode: it can only be missing, or a register that is not
there. -/
theorem missing_or_outOfRange {op : Opcode} {text : List Char} {operand : Option Operand}
    {e : OperandError} (h : readOperand op text = .ok operand)
    (hmake : Instruction.make op operand = .error e) :
    e = .missing op ∨ ∃ n, e = .indexOutOfRange n := by
  -- by what the opcode takes; what it does not take was refused when it was read
  unfold readOperand at h
  split at h
  · cases h
    cases op with
    | push | assert | load | store => cases hmake; exact Or.inl rfl
    | noop | pop | dump | clear | dup | swap | arith op | print | exit => cases hmake
  split at h
  · next hvalue =>
    obtain ⟨v, -, rfl⟩ := exists_ok_of_map h
    cases op with
    | push | assert => cases hmake
    | noop | pop | dump | clear | dup | swap | arith op | load | store | print | exit => cases hvalue
  split at h
  · next hregister =>
    obtain ⟨n, -, rfl⟩ := exists_ok_of_map h
    have hrange : Instruction.register n = .error e := by
      cases op with
      | load | store => exact map_eq_error_iff.mp hmake
      | noop | push | pop | dump | clear | dup | swap | assert | arith op | print | exit =>
        cases hregister
    unfold Instruction.register at hrange
    split at hrange
    · cases hrange
    · cases hrange
      exact Or.inr ⟨n, rfl⟩
  · cases h

/-- The messages about lines are those about operands and the ones that quote an opcode or name
it. -/
theorem visible_of_readInstruction {line : List Char} {e : LineError}
    (h : readInstruction line = .error (.invalid e)) : Visible e.message.toList := by
  unfold readInstruction at h
  dsimp only at h
  split at h
  · cases h
    exact visible_toList_append (by decide) (visible_quoted _)
  · next op _ =>
    rcases error_or_of_bind h with h | ⟨operand, hread, h⟩
    · exact visible_of_readOperand h
    · obtain ⟨e', hmake, heq⟩ := exists_error_of_mapError h
      cases heq
      rcases missing_or_outOfRange hread hmake with rfl | ⟨n, rfl⟩
      · show Visible (op.name ++ " requires an operand").toList
        exact visible_toList_append (visible_of_ink op.isInk_name) (by decide)
      · show Visible ("register index " ++ String.ofList (Kind.intText n)
          ++ " out of range [0, 16)").toList
        exact visible_toList_append (visible_toList_append (by decide) (Kind.visible_intText n))
          (by decide)

/-! ## Sources -/

/-- The number of the line is put in front of the message. Induction over the lines; the message
is that of the first line that is refused. -/
theorem visible_of_assembleLines {n : Nat} {lines : List (List Char)} {e : SourceError}
    (h : assembleLines n lines = .error (.invalid e)) : Visible e.message.toList := by
  induction lines generalizing n with
  | nil => cases h
  | cons line lines ih =>
    unfold assembleLines at h
    dsimp only at h
    split at h
    · exact ih h
    · rcases error_or_of_bind h with h | ⟨i, -, h⟩
      · -- the line itself is wrong
        obtain ⟨e', he, heq⟩ := exists_error_of_mapError h
        obtain ⟨fault, rfl, rfl⟩ := ReadError.exists_of_map_eq_invalid heq
        show Visible ("line " ++ n.repr ++ ": " ++ fault.message).toList
        refine visible_toList_append (visible_toList_append
          (visible_toList_append (by decide) ?_) (by decide)) (visible_of_readInstruction he)
        rw [Nat.toList_repr]
        exact visible_toDigits (by decide) (by decide) n
      · -- one of the lines after it is
        rcases error_or_of_bind h with h | ⟨p, -, h⟩
        · exact ih h
        · cases h

/-- **The message of an assembly error is visible**, whatever the source holds. So a screen that
takes control sequences out writes it as it is. -/
theorem visible_message {source : String} {e : SourceError}
    (h : assemble source = .error (.invalid e)) : Visible e.message.toList :=
  visible_of_assembleLines h

end Assembly

end StackMachine
