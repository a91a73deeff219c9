import Mathlib
import StackMachine.Proofs.LiteralGrammar

/-!
# Rows of digits that are too long

A row of more digits than are ever converted is refused in a way of its own: the error is none of the text's
form and names no line. Here is said which texts and which lines that happens to. The limit is looked at
after the form of a literal and before its value, so zeros in front count, and it concerns the literals of
integer kinds and the indices of registers, in any script and with a sign or without.

* **`Value.OverlongLiteral`**, **`Assembly.OverlongOperand`**: the literals and the operands that are too long.
* **`Value.parse_eq_tooManyDigits_iff`**: no other text is refused for its length.
* **`Assembly.InstructionLine`**: an opcode and its operand in a line.
* **`Assembly.readInstruction_eq_tooManyDigits_iff`**: no other line is refused for its length.
-/

namespace StackMachine

open Text

/-! ## Rows of digits that are too long -/

namespace Numeral

/-- A row of digits is refused for its length only, and the error tells the length. -/
theorem intOfDigits_eq_tooManyDigits_iff {ε : Type} {negative : Bool} {ds : List Nat} {d : TooManyDigits} :
    (intOfDigits negative ds : Except (ReadError ε) Int) = .error (.tooManyDigits d)
      ↔ 4300 < ds.length ∧ ds.length = d.count := by
  unfold intOfDigits digitLimit
  split
  · next hlong =>
    constructor
    · intro h
      obtain rfl := ReadError.tooManyDigits.inj (Except.error.inj h)
      exact ⟨hlong, rfl⟩
    · intro h
      rw [h.2]
  · next hshort =>
    constructor
    · intro h
      cases h
    · intro h
      exact absurd h.1 hshort

end Numeral

section

variable {ε δ α : Type}

theorem ReadError.map_eq_tooManyDigits_iff {r : ReadError ε} {f : ε → δ} {d : TooManyDigits} :
    r.map f = .tooManyDigits d ↔ r = .tooManyDigits d := by
  cases r with
  | invalid e => simp [ReadError.map]
  | tooManyDigits e => simp [ReadError.map]

/-- An error that has a message is none about length. -/
theorem mapError_invalid_ne_tooManyDigits (x : Except ε α) (f : ε → δ) (d : TooManyDigits) :
    x.mapError (fun e => ReadError.invalid (f e)) ≠ .error (.tooManyDigits d) := by
  cases x with
  | error e =>
    intro h
    cases h
  | ok a =>
    intro h
    cases h

/-- Changing the messages of errors leaves those about length alone. -/
theorem mapError_map_eq_tooManyDigits_iff {x : Except (ReadError ε) α} {f : ε → δ} {d : TooManyDigits} :
    x.mapError (·.map f) = .error (.tooManyDigits d) ↔ x = .error (.tooManyDigits d) := by
  cases x with
  | error r =>
    show Except.error (r.map f) = _ ↔ _
    rw [Except.error.injEq, Except.error.injEq, ReadError.map_eq_tooManyDigits_iff]
  | ok a =>
    constructor
    · intro h
      cases h
    · intro h
      cases h

end

namespace Value

open Numeral

/-- The literals of an integer kind with more digits than are read, whatever number these denote. -/
inductive OverlongLiteral (count : Nat) (text : List Char) : Prop where
  | mk {k : IntKind} {tag sign digits : List Char} {negative : Bool} {values : List Nat}
      (framed : Framed tag (sign ++ digits) text) (name : Kind.Spells tag k.name.toList)
      (leading : Sign sign negative) (denotes : Denotes digits values) (long : 4300 < digits.length)
      (length : digits.length = count)

/-- An integer is refused for its length before its range is looked at, so the kind plays no part.
-/
theorem readInteger_eq_tooManyDigits_iff {k : IntKind} {body : List Char} {d : TooManyDigits} :
    readInteger k body = .error (.tooManyDigits d) ↔
      ∃ negative values, spanInteger? body = some (negative, values) ∧ 4300 < values.length
        ∧ values.length = d.count := by
  unfold readInteger
  cases hspan : spanInteger? body with
  | none => simp
  | some span =>
    obtain ⟨negative, values⟩ := span
    constructor
    · intro h
      rcases error_or_of_bind h with hdigits | ⟨n, -, hrange⟩
      · exact ⟨negative, values, rfl, intOfDigits_eq_tooManyDigits_iff.mp hdigits⟩
      · split at hrange
        · cases hrange
        · cases hrange
    · intro h
      obtain ⟨negative', values', hsame, hlong⟩ := h
      cases hsame
      show intOfDigits negative values >>= _ = _
      rw [intOfDigits_eq_tooManyDigits_iff.mpr hlong]
      rfl

/-- **A text is refused for its length exactly if it is a literal of an integer kind that is too
long.** The digits of a float or of a decimal are not limited. -/
theorem parse_eq_tooManyDigits_iff {text : List Char} {d : TooManyDigits} :
    parse text = .error (.tooManyDigits d) ↔ OverlongLiteral d.count text := by
  constructor
  · intro h
    unfold parse at h
    split at h
    · cases h
    · next parts hparts =>
      have hframed := splitLiteral?_eq_some_iff.mp hparts
      split at h
      · cases h
      · next k hname =>
        obtain ⟨negative, values, hspan, hlong, hcount⟩ := readInteger_eq_tooManyDigits_iff.mp h
        obtain ⟨sign, digits, hbody, hsign, -, hdigits⟩ := spanInteger?_eq_some_iff.mp hspan
        rw [hbody] at hframed
        rw [← hdigits.length_eq] at hlong hcount
        exact .mk hframed (Kind.ofName?_toLower_eq_some_iff.mp hname) hsign hdigits hlong hcount
      · -- floats and decimals are refused with a message only
        exact absurd h (mapError_invalid_ne_tooManyDigits _ _ _)
      · exact absurd h (mapError_invalid_ne_tooManyDigits _ _ _)
  · intro h
    obtain ⟨framed, name, leading, denotes, long, length⟩ := h
    rename_i k tag sign digits negative values
    have hname : Kind.ofName? (tag.map Char.toLower) = some (.integer k) :=
      Kind.ofName?_toLower_eq_some_iff.mpr name
    have hne : digits ≠ [] := by
      intro hnil
      rw [hnil] at long
      cases long
    have hspan := spanInteger?_eq_some_iff.mpr ⟨sign, digits, rfl, leading, hne, denotes⟩
    have hvalues := denotes.length_eq
    simp only [parse, splitLiteral?_eq_some_iff.mpr framed, hname]
    exact readInteger_eq_tooManyDigits_iff.mpr ⟨negative, values, hspan, by omega, by omega⟩

/-- Such a literal holds a parenthesis, so it is no row of digits. An index is tried as digits
first and as a literal then, and the two cases exclude each other. -/
theorem OverlongLiteral.mem_parenthesis {count : Nat} {text : List Char} (h : OverlongLiteral count text) :
    '(' ∈ text := by
  obtain ⟨framed, -, -, -, -, -⟩ := h
  cases framed
  simp

end Value

/-! ## Operands -/

namespace Assembly

/-- The operands with more digits than are read: the index of a register, and the literal of an integer kind
in the place of a value or of an index. -/
inductive OverlongOperand (count : Nat) (op : Opcode) (text : List Char) : Prop where
  | index {values : List Nat} (register : op.takesRegister = true) (denotes : Denotes text values)
      (long : 4300 < text.length) (length : text.length = count)
  | literal (operand : op.takesOperand = true) (overlong : Value.OverlongLiteral count text)

/-- The index of a register is refused for its length as a row of digits, or as a literal that
stands in its place. -/
theorem readIndex_eq_tooManyDigits_iff {text : List Char} {d : TooManyDigits} :
    readIndex text = .error (.tooManyDigits d) ↔
      (∃ values, Denotes text values ∧ 4300 < text.length ∧ text.length = d.count)
        ∨ Value.OverlongLiteral d.count text := by
  unfold readIndex
  split
  · next v vs hspan =>
    have hdigits := spanDigits_eq_iff.mp hspan
    rw [Numeral.intOfDigits_eq_tooManyDigits_iff, ← hdigits.length_eq]
    constructor
    · intro h
      exact .inl ⟨_, hdigits, h⟩
    · rintro (⟨values, -, hlong⟩ | hliteral)
      · exact hlong
      · -- a row of digits has no parenthesis
        obtain ⟨value, -, hvalue⟩ := exists_of_mem_left hdigits hliteral.mem_parenthesis
        cases hvalue
  · next hnoRow =>
    have hrow : ¬ ∃ values, Denotes text values ∧ 4300 < text.length ∧ text.length = d.count := by
      intro h
      obtain ⟨values, hdigits, hlong, -⟩ := h
      cases values with
      | nil =>
        rw [hdigits.length_eq] at hlong
        cases hlong
      | cons v vs => exact hnoRow v vs (spanDigits_eq_iff.mpr hdigits)
    rw [or_iff_right hrow]
    -- what holds a parenthesis is tried as a literal
    by_cases hparenthesis : text.contains '(' = true
    · rw [if_pos hparenthesis, ← Value.parse_eq_tooManyDigits_iff]
      cases Value.parse text with
      | error e =>
        show Except.error (e.map LineError.literal) = _ ↔ _
        rw [Except.error.injEq, Except.error.injEq, ReadError.map_eq_tooManyDigits_iff]
      | ok v => cases hv : v.int? <;> simp [hv]
    · rw [if_neg hparenthesis]
      constructor
      · intro h
        cases h
      · intro h
        exact absurd (List.contains_iff_mem.mpr h.mem_parenthesis) hparenthesis

/-- An operand that is too long is not empty, so its opcode is followed by something. -/
theorem OverlongOperand.ne_nil {count : Nat} {op : Opcode} {text : List Char}
    (h : OverlongOperand count op text) : text ≠ [] := by
  intro hnil
  cases h with
  | index register denotes long length =>
    rw [hnil] at long
    cases long
  | literal operand overlong =>
    have hmem := overlong.mem_parenthesis
    rw [hnil] at hmem
    cases hmem

/-- Operands are read by their opcode: as a literal, as an index, or not at all. -/
theorem readOperand_eq_tooManyDigits_iff {op : Opcode} {text : List Char} {d : TooManyDigits} :
    readOperand op text = .error (.tooManyDigits d) ↔ OverlongOperand d.count op text := by
  by_cases hempty : text = []
  · constructor
    · intro h
      rw [hempty] at h
      cases h
    · intro h
      exact absurd hempty h.ne_nil
  have hsome : text.isEmpty = false := by simpa using hempty
  rw [readOperand, hsome]
  -- by what the opcode takes; the grammar of operands has the same three cases
  cases op with
  | push | assert =>
    show ((Value.parse text).mapError (·.map LineError.literal)).map _ = _ ↔ _
    rw [map_eq_error_iff, mapError_map_eq_tooManyDigits_iff, Value.parse_eq_tooManyDigits_iff]
    constructor
    · intro h
      exact .literal rfl h
    · intro h
      cases h with
      | index register denotes long length => cases register
      | literal operand overlong => exact overlong
  | load | store =>
    show (readIndex text).map _ = _ ↔ _
    rw [map_eq_error_iff, readIndex_eq_tooManyDigits_iff]
    constructor
    · rintro (⟨values, hdigits, hlong, hlength⟩ | hliteral)
      · exact .index rfl hdigits hlong hlength
      · exact .literal rfl hliteral
    · intro h
      cases h with
      | index register denotes long length => exact .inl ⟨_, denotes, long, length⟩
      | literal operand overlong => exact .inr overlong
  | noop | pop | dump | clear | dup | swap | arith op | print | exit =>
    constructor
    · intro h
      cases h
    · intro h
      cases h with
      | index register denotes long length => cases register
      | literal operand overlong => cases operand

/-! ## Lines -/

end Assembly

namespace Opcode

theorem isAlphanum_name (op : Opcode) :
    ∀ c ∈ op.name.toList, c.isUpper = false ∧ c.isAlphanum = true := by
  have hall : op.name.toList.all (fun c => decide (c.isUpper = false ∧ c.isAlphanum = true)) = true := by
    cases op with
    | arith op => cases op <;> decide
    | noop | push | pop | dump | clear | dup | swap | assert | load | store | print | exit => decide
  exact fun c hc => of_decide_eq_true (List.all_eq_true.mp hall c hc)

/-- **An opcode is found by its name in any case**, as a kind is. -/
theorem ofName?_toLower_eq_some_iff {name : List Char} {op : Opcode} :
    ofName? (name.map Char.toLower) = some op ↔ Kind.Spells name op.name.toList :=
  Kind.find?_toLower_eq_some_iff (fun op : Opcode => op.name.toList)
    (fun c hc => (op.isAlphanum_name c hc).1) op.ofName?_name

end Opcode

namespace Assembly

/-- An opcode in any case and its operand, as they stand in a line: a space ends the opcode, and blanks may
stand behind it and at both ends of the line. -/
inductive InstructionLine (op : Opcode) (text : List Char) : List Char → Prop where
  | mk {w₁ w₂ w₃ name : List Char} (padding : ∀ w ∈ [w₁, w₂, w₃], IsPadding w)
      (spelled : Kind.Spells name op.name.toList) (trimmed : IsTrimmed text) (nonempty : text ≠ []) :
      InstructionLine op text (w₁ ++ name ++ ' ' :: (w₂ ++ text ++ w₃))

/-- Of a line without blanks at its ends, an opcode and its operand are left as they are. Only the
blanks between them are taken off. -/
theorem isTrimmed_line {op : Opcode} {name w text : List Char} (spelled : Kind.Spells name op.name.toList)
    (trimmed : IsTrimmed text) (nonempty : text ≠ []) : IsTrimmed (name ++ ' ' :: (w ++ text)) := by
  have hname : name ≠ [] := by
    intro hnil
    have hlength := spelled.length_eq
    rw [hnil] at hlength
    exact op.name_ne_nil (List.length_eq_zero_iff.mp hlength.symm)
  constructor
  · intro c hc
    rw [List.head?_append_of_ne_nil _ hname] at hc
    have hmem := List.mem_of_mem_head? hc
    exact isBlank_of_isAlphanum (spelled.isAlphanum (fun d hd => (op.isAlphanum_name d hd).2) c hmem)
  · intro c hc
    have hlast : (name ++ ' ' :: (w ++ text)).getLast? = text.getLast? := by
      rw [List.append_cons, ← List.append_assoc, List.getLast?_append_of_ne_nil _ nonempty]
    rw [hlast] at hc
    exact trimmed.last c hc

/-- **A line is read in its parts.** Whether it is refused depends on the operand and on whether
the opcode takes it. -/
theorem InstructionLine.readInstruction {op : Opcode} {text line : List Char}
    (h : InstructionLine op text line) :
    readInstruction line = (readOperand op text).bind fun operand =>
      (Instruction.make op operand).mapError (.invalid <| .operand ·) := by
  cases h with
  | @mk w₁ w₂ w₃ name padding spelled trimmed nonempty =>
    -- trimming takes the outer blanks, and the space after the opcode ends its name
    have hline : trim (w₁ ++ name ++ ' ' :: (w₂ ++ text ++ w₃)) = name ++ ' ' :: (w₂ ++ text) := by
      rw [show w₁ ++ name ++ ' ' :: (w₂ ++ text ++ w₃) = w₁ ++ (name ++ ' ' :: (w₂ ++ text)) ++ w₃ by simp]
      exact trim_padded (padding w₁ (by simp)) (padding w₃ (by simp))
        (isTrimmed_line spelled trimmed nonempty)
    have hname : (name ++ ' ' :: (w₂ ++ text)).takeWhile (· ≠ ' ') = name := by
      rw [List.takeWhile_append_of_pos, List.takeWhile_cons_of_neg (by decide), List.append_nil]
      intro c hc
      have halphanum := spelled.isAlphanum (fun d hd => (op.isAlphanum_name d hd).2) c hc
      apply decide_eq_true
      intro hspace
      rw [hspace] at halphanum
      cases halphanum
    have hrest : (name ++ ' ' :: (w₂ ++ text)).drop (name.length + 1) = w₂ ++ text := by
      rw [List.append_cons, List.drop_left' (by simp)]
    have htext : trim (w₂ ++ text) = text := by
      have hnothing : IsPadding [] := by simp [IsPadding]
      have hpadded := trim_padded (padding w₂ (by simp)) hnothing trimmed
      rwa [List.append_nil] at hpadded
    simp only [Assembly.readInstruction, hline, hname, hrest, htext,
      Opcode.ofName?_toLower_eq_some_iff.mpr spelled]
    rfl

/-- A line that is read in parts is an opcode and an operand with blanks around them. It is the
converse of the lemma above, for lines that have an operand. -/
theorem instructionLine_of_parts {op : Opcode} {line name : List Char}
    (hname : (trim line).takeWhile (· ≠ ' ') = name)
    (hfound : Opcode.ofName? (name.map Char.toLower) = some op)
    (hrest : trim ((trim line).drop (name.length + 1)) ≠ []) :
    InstructionLine op (trim ((trim line).drop (name.length + 1))) line := by
  obtain ⟨w₁, w₃, hw₁, hw₃, hline⟩ := exists_padding line
  have hsplit : name ++ (trim line).dropWhile (· ≠ ' ') = trim line := by
    rw [← hname]
    exact List.takeWhile_append_dropWhile
  have hspace := List.head?_dropWhile_not (· ≠ ' ') (trim line)
  generalize (trim line).dropWhile (· ≠ ' ') = behind at hsplit hspace
  cases behind with
  | nil =>
    -- without a space the opcode takes up the whole line
    rw [List.append_nil] at hsplit
    rw [← hsplit, List.drop_eq_nil_of_le (Nat.le_succ _)] at hrest
    exact absurd rfl hrest
  | cons c rest =>
    obtain rfl : c = ' ' := by simpa using hspace
    have hdrop : (trim line).drop (name.length + 1) = rest := by
      rw [← hsplit, List.append_cons, List.drop_left' (by simp)]
    rw [hdrop] at hrest ⊢
    obtain ⟨w₂, w, hw₂, hw, htext⟩ := exists_padding rest
    have hparts : line = w₁ ++ name ++ ' ' :: (w₂ ++ trim rest ++ (w ++ w₃)) := by
      calc line = w₁ ++ (name ++ ' ' :: rest) ++ w₃ := by rw [hsplit, ← hline]
        _ = w₁ ++ (name ++ ' ' :: (w₂ ++ trim rest ++ w)) ++ w₃ := by rw [← htext]
        _ = w₁ ++ name ++ ' ' :: (w₂ ++ trim rest ++ (w ++ w₃)) := by simp
    have hend : IsPadding (w ++ w₃) := by
      intro x hx
      rcases List.mem_append.mp hx with hx | hx
      · exact hw x hx
      · exact hw₃ x hx
    have hpadding : ∀ v ∈ [w₁, w₂, w ++ w₃], IsPadding v := by
      simp only [List.forall_mem_cons]
      exact ⟨hw₁, hw₂, hend, by simp⟩
    rw [hparts]
    exact .mk hpadding (Opcode.ofName?_toLower_eq_some_iff.mp hfound) (isTrimmed_trim rest) hrest

/-- **A line is refused for its length exactly if its operand is too long.** The right side is
told with the grammar of lines and literals, without the reader. -/
theorem readInstruction_eq_tooManyDigits_iff {line : List Char} {d : TooManyDigits} :
    readInstruction line = .error (.tooManyDigits d) ↔
      ∃ op text, InstructionLine op text line ∧ OverlongOperand d.count op text := by
  constructor
  · intro h
    unfold readInstruction at h
    dsimp only at h
    split at h
    · cases h
    · next op hname =>
      rcases error_or_of_bind h with hoperand | ⟨operand, -, hmake⟩
      · have hoverlong := readOperand_eq_tooManyDigits_iff.mp hoperand
        exact ⟨op, _, instructionLine_of_parts rfl hname hoverlong.ne_nil, hoverlong⟩
      · exact absurd hmake (mapError_invalid_ne_tooManyDigits _ _ _)
  · rintro ⟨op, text, hline, hoverlong⟩
    rw [hline.readInstruction, readOperand_eq_tooManyDigits_iff.mpr hoverlong]
    rfl

end Assembly

end StackMachine
