import Mathlib
import StackMachine.Proofs.CleanedSources
import StackMachine.Proofs.OverlongDigits

/-!
# The line that a source is rejected on

A source is assembled line by line, and the first line that is no instruction decides. What remains to be said
is which line that is, in numbers that count the blank lines too, and what becomes of its error: with a fault
of its form comes the number of the line, but a row of too many digits is passed on as it is.

* **`Assembly.codeLines`**: the lines that hold something, with their numbers.
* **`Assembly.FirstRejected`**: the one with the smallest number that is no instruction.
* **`Assembly.assembleLines_eq_ok_iff`**, **`Assembly.assembleLines_eq_error_iff`**: the two outcomes.
* **`sources_rejected_on_first_line`**: the headline.
-/

namespace StackMachine

open Text

namespace Assembly

/-! ## Lines with their numbers -/

/-- The lines that hold something, cleaned and with their numbers; the first of all lines has the number
given. -/
def codeLinesFrom (n : Nat) (lines : List (List Char)) : List (List Char × Nat) :=
  ((lines.map cleanLine).zipIdx n).filter fun line => !line.1.isEmpty

/-- The lines of a source that hold something, cleaned and with their numbers. -/
def codeLines (source : String) : List (List Char × Nat) :=
  codeLinesFrom 1 (splitLines source.toList)

theorem codeLinesFrom_of_blank {line : List Char} (h : (cleanLine line).isEmpty = true) (n : Nat)
    (lines : List (List Char)) : codeLinesFrom n (line :: lines) = codeLinesFrom (n + 1) lines := by
  simp [codeLinesFrom, h]

theorem codeLinesFrom_of_code {line : List Char} (h : (cleanLine line).isEmpty = false) (n : Nat)
    (lines : List (List Char)) :
    codeLinesFrom n (line :: lines) = (cleanLine line, n) :: codeLinesFrom (n + 1) lines := by
  simp [codeLinesFrom, h]

/-- Later lines have larger numbers, so the first that is refused is the one with the smallest. -/
theorem lt_of_mem_codeLinesFrom {n : Nat} {lines : List (List Char)} {line : List Char × Nat}
    (h : line ∈ codeLinesFrom (n + 1) lines) : n < line.2 :=
  List.le_snd_of_mem_zipIdx (List.mem_of_mem_filter h)

/-- Line `n` is no instruction, for this reason. -/
def Rejected (lines : List (List Char × Nat)) (n : Nat) (e : ReadError LineError) : Prop :=
  ∃ line, (line, n) ∈ lines ∧ readInstruction line = .error e

/-- Line `n` is the one with the smallest number that is no instruction, for this reason. -/
def FirstRejected (lines : List (List Char × Nat)) (n : Nat) (e : ReadError LineError) : Prop :=
  IsLeast {m | ∃ reason, Rejected lines m reason} n ∧ Rejected lines n e

section Cons

variable {lines : List (List Char × Nat)} {line : List Char} {n m : Nat} {e : ReadError LineError}

/-- The line that is refused is the first one or one of the others. -/
theorem rejected_cons_iff :
    Rejected ((line, n) :: lines) m e ↔ (m = n ∧ readInstruction line = .error e) ∨ Rejected lines m e := by
  constructor
  · intro h
    obtain ⟨other, hmem, hread⟩ := h
    rcases List.mem_cons.mp hmem with hhead | htail
    · obtain ⟨rfl, rfl⟩ := Prod.mk.inj hhead
      exact .inl ⟨rfl, hread⟩
    · exact .inr ⟨other, htail, hread⟩
  · rintro (⟨rfl, hread⟩ | ⟨other, hmem, hread⟩)
    · exact ⟨line, List.mem_cons_self, hread⟩
    · exact ⟨other, List.mem_cons_of_mem _ hmem, hread⟩

/-- Behind an instruction the search goes on, and it finds what it would find without the
instruction. -/
theorem firstRejected_cons_of_ok {i : Instruction} (h : readInstruction line = .ok i) :
    FirstRejected ((line, n) :: lines) m e ↔ FirstRejected lines m e := by
  have hsame : ∀ k reason, Rejected ((line, n) :: lines) k reason ↔ Rejected lines k reason := by
    intro k reason
    rw [rejected_cons_iff, h]
    simp
  simp only [FirstRejected, hsame]

/-- What is no instruction is the first if all others have larger numbers. What comes behind it is
not looked at. -/
theorem firstRejected_cons_of_error {cause : ReadError LineError} (h : readInstruction line = .error cause)
    (hlarger : ∀ other ∈ lines, n < other.2) :
    FirstRejected ((line, n) :: lines) m e ↔ m = n ∧ e = cause := by
  -- a line behind the first one has a larger number and cannot be the least
  have hbehind : ∀ k reason, Rejected lines k reason → n < k := by
    intro k reason hrejected
    obtain ⟨other, hmem, -⟩ := hrejected
    exact hlarger _ hmem
  have hhead : Rejected ((line, n) :: lines) n cause := rejected_cons_iff.mpr (.inl ⟨rfl, h⟩)
  constructor
  · intro hfirst
    obtain ⟨hleast, hrejected⟩ := hfirst
    have hle : m ≤ n := hleast.2 ⟨cause, hhead⟩
    rcases rejected_cons_iff.mp hrejected with ⟨hm, hread⟩ | htail
    · rw [h] at hread
      exact ⟨hm, (Except.error.inj hread).symm⟩
    · exact absurd (hbehind m e htail) (Nat.not_lt.mpr hle)
  · intro hboth
    obtain ⟨rfl, rfl⟩ := hboth
    refine ⟨⟨⟨e, hhead⟩, ?_⟩, hhead⟩
    intro k hk
    obtain ⟨reason, hrejected⟩ := hk
    rcases rejected_cons_iff.mp hrejected with ⟨hk, -⟩ | htail
    · exact hk.ge
    · exact (hbehind k reason htail).le

end Cons

/-! ## The two outcomes -/

/-- **A program has an instruction for each line that holds something, in their order.** Induction
over the lines, blank ones skipped on both sides. -/
theorem assembleLines_eq_ok_iff {n : Nat} {lines : List (List Char)} {program : Program} :
    assembleLines n lines = .ok program ↔
      List.Forall₂ (fun line i => readInstruction line.1 = .ok i) (codeLinesFrom n lines) program := by
  induction lines generalizing n program with
  | nil =>
    show Except.ok [] = Except.ok program ↔ List.Forall₂ _ [] program
    rw [List.forall₂_nil_left_iff, Except.ok.injEq, eq_comm]
  | cons line lines ih =>
    rw [assembleLines_cons]
    cases hblank : (cleanLine line).isEmpty with
    | true => rw [if_pos rfl, codeLinesFrom_of_blank hblank, ih]
    | false =>
      rw [if_neg Bool.false_ne_true, codeLinesFrom_of_code hblank, List.forall₂_cons_left_iff]
      -- a line that is refused leaves no program, whatever stands behind it
      cases readInstruction (cleanLine line) with
      | error e =>
        constructor
        · intro h
          cases h
        · rintro ⟨i, rest, hi, -⟩
          cases hi
      | ok i =>
        show (assembleLines (n + 1) lines).map (i :: ·) = .ok program ↔ _
        constructor
        · intro h
          obtain ⟨rest, hrest, hprogram⟩ := exists_ok_of_map h
          exact ⟨i, rest, rfl, ih.mp hrest, hprogram.symm⟩
        · rintro ⟨j, rest, hj, hrest, rfl⟩
          cases hj
          rw [ih.mpr hrest]
          rfl

/-- **A source is rejected on the first line that is no instruction**, with the reason for that
line. Induction over the lines; the number that the assembler counts is that of the line. -/
theorem assembleLines_eq_error_iff {n : Nat} {lines : List (List Char)} {e : ReadError SourceError} :
    assembleLines n lines = .error e ↔
      ∃ m cause, FirstRejected (codeLinesFrom n lines) m cause
        ∧ e = cause.map fun fault => ⟨m, .line fault⟩ := by
  induction lines generalizing n with
  | nil =>
    constructor
    · intro h
      cases h
    · rintro ⟨m, cause, ⟨-, line, hmem, -⟩, -⟩
      cases hmem
  | cons line lines ih =>
    rw [assembleLines_cons]
    cases hblank : (cleanLine line).isEmpty with
    | true => rw [if_pos rfl, codeLinesFrom_of_blank hblank, ih]
    | false =>
      rw [if_neg Bool.false_ne_true, codeLinesFrom_of_code hblank]
      cases hread : readInstruction (cleanLine line) with
      | error cause =>
        simp only [firstRejected_cons_of_error hread fun _ => lt_of_mem_codeLinesFrom]
        show Except.error (cause.map _) = _ ↔ _
        constructor
        · intro h
          exact ⟨n, cause, ⟨rfl, rfl⟩, (Except.error.inj h).symm⟩
        · rintro ⟨m, reason, ⟨rfl, rfl⟩, rfl⟩
          rfl
      | ok i =>
        simp only [firstRejected_cons_of_ok hread]
        show (assembleLines (n + 1) lines).map (i :: ·) = _ ↔ _
        rw [map_eq_error_iff, ih]

end Assembly

open Assembly

/-! ## The headline -/

/-- **A source is rejected on its first line that is no instruction, and with this line, unless the line has a
row of too many digits.** A source is assembled exactly if each line that holds something is an instruction,
and the program has these in their order. A fault is reported with the smallest number of a line that is no
instruction, and it is the fault of that line. If what is wrong there is a row of too many digits, this is
what leaves the assembler, without a line. That happens for an operand that is too long and for no other line,
and a value is refused so for an integer literal that is too long and for no other text. -/
theorem sources_rejected_on_first_line (source : String) :
    (∀ program, assemble source = .ok program ↔
        List.Forall₂ (fun line i => readInstruction line.1 = .ok i) (codeLines source) program)
      ∧ (∀ n fault, assemble source = .error (.invalid ⟨n, fault⟩) ↔
          ∃ e, fault = .line e ∧ FirstRejected (codeLines source) n (.invalid e))
      ∧ (∀ d, assemble source = .error (.tooManyDigits d) ↔
          ∃ n, FirstRejected (codeLines source) n (.tooManyDigits d))
      ∧ (∀ line d, readInstruction line = .error (.tooManyDigits d) ↔
          ∃ op text, InstructionLine op text line ∧ OverlongOperand d.count op text)
      ∧ ∀ text d, Value.parse text = .error (.tooManyDigits d) ↔ Value.OverlongLiteral d.count text := by
  have hrejected : ∀ e, assemble source = .error e ↔
      ∃ m cause, FirstRejected (codeLines source) m cause
        ∧ e = cause.map fun fault => ⟨m, .line fault⟩ :=
    fun e => assembleLines_eq_error_iff
  refine ⟨fun program => assembleLines_eq_ok_iff, ?_, ?_, fun _ _ => readInstruction_eq_tooManyDigits_iff,
    fun _ _ => Value.parse_eq_tooManyDigits_iff⟩
  · intro n fault
    rw [hrejected]
    constructor
    · rintro ⟨m, cause, hfirst, heq⟩
      -- an error about length loses its line, so it is not among those that have one
      cases cause with
      | invalid e =>
        obtain ⟨rfl, rfl⟩ := SourceError.mk.inj (ReadError.invalid.inj heq)
        exact ⟨e, rfl, hfirst⟩
      | tooManyDigits d => cases heq
    · rintro ⟨e, rfl, hfirst⟩
      exact ⟨n, .invalid e, hfirst, rfl⟩
  · intro d
    rw [hrejected]
    constructor
    · rintro ⟨m, cause, hfirst, heq⟩
      rw [ReadError.map_eq_tooManyDigits_iff.mp heq.symm] at hfirst
      exact ⟨m, hfirst⟩
    · rintro ⟨n, hfirst⟩
      exact ⟨n, .tooManyDigits d, hfirst, rfl⟩

/-! A literal with too many digits may well be out of the range of its kind. This is not looked at. -/

section Row

variable (k : IntKind) {row : List Char} (hrow : IsRow row) (hlong : 4300 < row.length)
include hrow hlong

/-- A row of more than the allowed digits in the parentheses of an integer kind. -/
theorem Value.overlongLiteral_row :
    Value.OverlongLiteral row.length ((Kind.integer k).name.toList ++ '(' :: (row ++ [')'])) :=
  .mk (framed_of_splitLiteral? (splitLiteral?_append (.integer k) hrow.isInk))
    (Kind.ofName?_toLower_eq_some_iff.mp (Kind.ofName?_name (.integer k))) .none
    (spanDigits_eq_iff.mp (spanDigits_row hrow)) hlong rfl

/-- Pushing such a literal is refused for its length, whatever kind of integer it is. -/
theorem Assembly.readInstruction_row :
    readInstruction (Opcode.push.name.toList ++ ' ' :: ((Kind.integer k).name.toList ++ '(' :: (row ++ [')'])))
      = .error (.tooManyDigits ⟨row.length⟩) := by
  have hink := Value.isInk_literalText (.integer k) hrow.isInk
  have htrimmed := isTrimmed_of_forall fun c hc => (hink c hc).isBlank
  have hspelled := Opcode.ofName?_toLower_eq_some_iff.mp (Opcode.ofName?_name .push)
  have hpadding : ∀ w ∈ [[], [], []], IsPadding w := by simp [IsPadding]
  have hline := InstructionLine.mk hpadding hspelled htrimmed (by simp)
  simp only [List.nil_append, List.append_nil] at hline
  exact readInstruction_eq_tooManyDigits_iff.mpr
    ⟨.push, _, hline, .literal rfl (Value.overlongLiteral_row k hrow hlong)⟩

/-- So is a source that consists of this line. -/
theorem Assembly.assembleChars_row :
    assembleChars (Opcode.push.name.toList ++ ' ' :: ((Kind.integer k).name.toList ++ '(' :: (row ++ [')'])))
      = .error (.tooManyDigits ⟨row.length⟩) := by
  have hink := Value.isInk_literalText (.integer k) hrow.isInk
  rw [assembleChars_of_isClean (isClean_operand .push (by simp) hink), readInstruction_row k hrow hlong]
  rfl

end Row

/-- An error about too many digits carries no line, wherever it arises: in a literal, in a line or
in a source. -/
theorem overlong_literal_without_line :
    Value.parse ("int8".toList ++ '(' :: (List.replicate 4301 '9' ++ [')']))
        = .error (.tooManyDigits ⟨4301⟩)
      ∧ readInstruction ("push".toList ++ ' ' :: ("int8".toList ++ '(' :: (List.replicate 4301 '9' ++ [')'])))
        = .error (.tooManyDigits ⟨4301⟩)
      ∧ assemble ("push int8(" ++ String.ofList (List.replicate 4301 '9') ++ ")")
        = .error (.tooManyDigits ⟨4301⟩) := by
  have hrow : IsRow (List.replicate 4301 '9') := by
    intro c hc
    rw [List.eq_of_mem_replicate hc]
    rfl
  have hlength : (List.replicate 4301 '9').length = 4301 := List.length_replicate
  generalize List.replicate 4301 '9' = row at *
  have hlong : 4300 < row.length := by omega
  have hsource : ("push int8(" ++ String.ofList row ++ ")").toList
      = Opcode.push.name.toList ++ ' ' :: ((Kind.integer .int8).name.toList ++ '(' :: (row ++ [')'])) := by
    simp [Opcode.name, Kind.name, IntKind.name]
  rw [assemble, hsource, ← hlength]
  exact ⟨Value.parse_eq_tooManyDigits_iff.mpr (Value.overlongLiteral_row .int8 hrow hlong),
    readInstruction_row .int8 hrow hlong, assembleChars_row .int8 hrow hlong⟩

end StackMachine
