import Mathlib
import StackMachine.Proofs.Disassembly

/-!
# Assembly sees cleaned lines only

Comments, tabs, blanks at the ends of lines and the kind of line break are gone once every line of a source
is cleaned and the lines are joined with line feeds again. What is left assembles to the same result, an
error on the same line included. Two things could stand in the way: a cleaned line is cleaned a second time,
and the lines of the joined text are found anew.

* **`Assembly.cleanLine_cleanLine`**: cleaning a second time changes nothing.
* **`Text.splitLines_joinLines`**: joined lines are found again, but for an empty one at the end.
* **`Assembly.assembleLines_map_cleanLine`**: lines may be cleaned before they are assembled.
* **`assembly_sees_cleaned_lines`**: the headline.
-/

namespace StackMachine

namespace Text

/-! ## Lines that are joined -/

/-- A text without line breaks. -/
def IsLine (cs : List Char) : Prop :=
  ∀ c ∈ cs, isLineBreak c = false

theorem IsLine.tail {c : Char} {cs : List Char} (h : IsLine (c :: cs)) : IsLine cs :=
  fun d hd => h d (List.mem_cons_of_mem c hd)

/-- A character that is no line break can be put in front of the first line. -/
theorem isLine_consLine {c : Char} (hc : isLineBreak c = false) {lines : List (List Char)}
    (h : ∀ line ∈ lines, IsLine line) : ∀ line ∈ consLine c lines, IsLine line := by
  intro line hline d hd
  cases lines with
  | nil =>
    rw [consLine, List.mem_singleton] at hline
    rw [hline, List.mem_singleton] at hd
    rw [hd, hc]
  | cons first rest =>
    rcases List.mem_cons.mp hline with hfirst | hrest
    · rw [hfirst] at hd
      rcases List.mem_cons.mp hd with hd | hd
      · rw [hd, hc]
      · exact h first List.mem_cons_self d hd
    · exact h line (List.mem_cons_of_mem first hrest) d hd

theorem isLine_nil : IsLine [] := by
  intro c hc
  cases hc

/-- A text is cut at all of its line breaks, so none is left in a line. Induction on the recursion
of `splitLines`. -/
theorem isLine_of_mem_splitLines (cs : List Char) : ∀ line ∈ splitLines cs, IsLine line := by
  fun_induction splitLines cs with
  | case1 =>
    intro line hline
    cases hline
  | case2 cs ih => exact List.forall_mem_cons.mpr ⟨isLine_nil, ih⟩
  | case3 c cs _ hbreak ih => exact List.forall_mem_cons.mpr ⟨isLine_nil, ih⟩
  | case4 c cs _ hbreak ih => exact isLine_consLine (by simpa using hbreak) ih

/-- A line that is closed with a line feed is found as it was. Induction over the line. -/
theorem splitLines_closed {line : List Char} (h : IsLine line) : splitLines (line ++ ['\n']) = [line] := by
  induction line with
  | nil => exact splitLines_lineFeed []
  | cons c cs ih =>
    have hc : isLineBreak c = false := h c List.mem_cons_self
    have hreturn : c ≠ '\r' := ne_of_isLineBreak hc isLineBreak_return
    rw [List.cons_append, splitLines_cons fun _ heq => absurd heq hreturn, hc, ih h.tail]
    rfl

/-- **Joined lines are found again**, but for an empty line at the end, which no line break
follows. Induction over the lines; the line feed between two of them closes the first. -/
theorem splitLines_joinLines {lines : List (List Char)} (h : ∀ line ∈ lines, IsLine line) :
    splitLines (joinLines lines) = lines ∨ splitLines (joinLines lines) ++ [[]] = lines := by
  induction lines with
  | nil => exact Or.inl rfl
  | cons line lines ih =>
    have hline : IsLine line := h line List.mem_cons_self
    cases lines with
    | nil =>
      have hjoin : joinLines [line] = line := List.intercalate_singleton
      rw [hjoin]
      cases line with
      | nil =>
        -- a last line that is empty leaves nothing behind the line feed before it
        exact Or.inr rfl
      | cons c cs => exact Or.inl (Assembly.splitLines_of_unbroken (by simp) hline)
    | cons next rest =>
      have hjoin : joinLines (line :: next :: rest) = line ++ '\n' :: joinLines (next :: rest) := by
        simp [joinLines, List.intercalate_cons_cons]
      -- the line feed closes the first line, and the others are split by themselves
      rw [hjoin, splitLines_append, splitLines_closed hline]
      rcases ih fun other hother => h other (List.mem_cons_of_mem line hother) with hall | hbut
      · exact Or.inl (congrArg (line :: ·) hall)
      · exact Or.inr (congrArg (line :: ·) hbut)

end Text

open Text

namespace Assembly

/-! ## Cleaned lines -/

/-- What is left of a line are characters of it, and spaces for its tabs. Neither a comment nor a
tab is among them. -/
theorem mem_of_mem_cleanLine {line : List Char} {c : Char} (h : c ∈ cleanLine line) :
    c ≠ ';' ∧ c ≠ '\t' ∧ (c ∈ line ∨ c = ' ') := by
  obtain ⟨w, w', -, -, hpadded⟩ :=
    exists_padding ((line.takeWhile (· ≠ ';')).map fun d => if d = '\t' then ' ' else d)
  have hmem : c ∈ (line.takeWhile (· ≠ ';')).map fun d => if d = '\t' then ' ' else d := by
    rw [hpadded, List.append_assoc]
    exact List.mem_append_right w (List.mem_append_left w' h)
  obtain ⟨d, hd, hdc⟩ := List.mem_map.mp hmem
  have hcode : d ≠ ';' := by simpa using List.mem_takeWhile_imp hd
  by_cases htab : d = '\t'
  · rw [if_pos htab] at hdc
    rw [← hdc]
    exact ⟨by decide, by decide, Or.inr rfl⟩
  · rw [if_neg htab] at hdc
    rw [← hdc]
    exact ⟨hcode, htab, Or.inl (List.takeWhile_subset _ hd)⟩

/-- **Cleaning a second time changes nothing**: there are no comments and tabs left to replace,
and no blanks at the ends. -/
theorem cleanLine_cleanLine (line : List Char) : cleanLine (cleanLine line) = cleanLine line := by
  apply cleanLine_eq_self
  · intro c hc
    have hkept := mem_of_mem_cleanLine hc
    exact ⟨hkept.1, hkept.2.1⟩
  · exact (isTrimmed_trim _).trim_eq

/-- Cleaning makes no line break, as the only new characters are spaces. -/
theorem isLine_cleanLine {line : List Char} (h : IsLine line) : IsLine (cleanLine line) := by
  intro c hc
  rcases (mem_of_mem_cleanLine hc).2.2 with hmem | hspace
  · exact h c hmem
  · rw [hspace]
    decide

/-- **Lines may be cleaned before they are assembled.** Induction over the lines; the assembler
cleans each line itself, and doing so twice changes nothing. -/
theorem assembleLines_map_cleanLine (n : Nat) (lines : List (List Char)) :
    assembleLines n (lines.map cleanLine) = assembleLines n lines := by
  induction lines generalizing n with
  | nil => rfl
  | cons line lines ih =>
    rw [List.map_cons, assembleLines_cons, assembleLines_cons, cleanLine_cleanLine, ih]

/-- The cleaned lines of a text. -/
def cleanedLines (source : String) : List (List Char) :=
  (splitLines source.toList).map cleanLine

/-- The cleaned lines of a text, joined with line feeds. -/
def cleaned (source : String) : String :=
  String.ofList (joinLines (cleanedLines source))

theorem assembleLines_cleanedLines (source : String) :
    assembleLines 1 (cleanedLines source) = assemble source :=
  assembleLines_map_cleanLine 1 (splitLines source.toList)

theorem isLine_of_mem_cleanedLines (source : String) : ∀ line ∈ cleanedLines source, IsLine line := by
  intro line hline
  obtain ⟨raw, hraw, hclean⟩ := List.mem_map.mp hline
  rw [← hclean]
  exact isLine_cleanLine (isLine_of_mem_splitLines _ raw hraw)

end Assembly

open Assembly

/-! ## The headline -/

/-- **Assembly sees cleaned lines only.** The cleaned lines of a source, joined with line feeds, assemble to
the same program as the source, or they fail with the same error on the same line. So any two sources with
the same cleaned lines assemble alike, whatever their comments, tabs, blanks and line breaks are. Cleaning a
line a second time changes nothing. -/
theorem assembly_sees_cleaned_lines (source : String) :
    assemble (cleaned source) = assemble source
      ∧ (∀ other, cleanedLines other = cleanedLines source → assemble other = assemble source)
      ∧ ∀ line, cleanLine (cleanLine line) = cleanLine line := by
  refine ⟨?_, ?_, cleanLine_cleanLine⟩
  · show assembleLines 1 (splitLines (cleaned source).toList) = assemble source
    rw [cleaned, String.toList_ofList, ← assembleLines_cleanedLines source]
    rcases splitLines_joinLines (isLine_of_mem_cleanedLines source) with hall | hbut
    · rw [hall]
    · -- the empty line that is lost at the end is no instruction
      rw [← assembleLines_concat_nil, hbut]
  · intro other hsame
    rw [← assembleLines_cleanedLines other, hsame, assembleLines_cleanedLines]

/-- Line breaks of four kinds, a comment that holds a semicolon, tabs, spaces of other widths and a last line
that is only a comment: the error stays on the fourth line. -/
theorem assembly_sees_cleaned_lines_after_breaks :
    let source := "\tpush\tint8(7) ;; seven\r\n\x0b  dup\u2003\u2028\u00a0load\t16 ; none\r; end"
    let plain := "push int8(7)\n\ndup\nload 16\n"
    let fault : SourceFault := .line (.operand (.indexOutOfRange 16))
    cleaned source = plain ∧ cleanedLines "push int8(7)\x1c\x1cdup\u2029load 16\r;" = cleanedLines source
      ∧ assemble source = .error (.invalid ⟨4, fault⟩)
      ∧ assemble "push int8(7)\x1c\x1cdup\u2029load 16\r;" = .error (.invalid ⟨4, fault⟩) := by
  intro source plain fault
  have hclean : cleaned source = plain := by
    unfold source plain
    decide +kernel
  have hlines : cleanedLines "push int8(7)\x1c\x1cdup\u2029load 16\r;" = cleanedLines source := by
    unfold source
    decide +kernel
  have hplain : assemble plain = .error (.invalid ⟨4, fault⟩) := by
    unfold plain fault
    decide +kernel
  obtain ⟨hsame, hother, -⟩ := assembly_sees_cleaned_lines source
  rw [hclean, hplain] at hsame
  exact ⟨hclean, hlines, hsame.symm, (hother _ hlines).trans hsame.symm⟩

end StackMachine
