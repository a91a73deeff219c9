import StackMachine.Assembly

/-!
# Assembly of concatenated sources

Two sources with a line feed between them assemble to the one program and the other behind it. The
first error decides, and an error in the second source is found as many lines further down as the first
one takes up. What has to be found is what the seam does to the lines: a carriage return at the end of
the first source and the line feed are one break.

* **`Text.splitLines_append`**: the lines of the whole are those of the parts.
* **`Text.splitLines_concat`**: a line feed at the end adds an empty line at most.
* **`Assembly.assembleLines_append`**, **`Assembly.assembleLines_add`**: lines are assembled one after
  the other, and their numbers only count.
* **`assemble_concatenation`**: the headline.
-/

namespace StackMachine

namespace Text

/-! ## Lines at a seam -/

theorem isLineBreak_lineFeed : isLineBreak '\n' = true := by decide

theorem isLineBreak_return : isLineBreak '\r' = true := by decide

theorem ne_of_isLineBreak {c d : Char} (hc : isLineBreak c = false) (hd : isLineBreak d = true) : c ≠ d := by
  intro heq
  rw [heq, hd] at hc
  cases hc

/-- Unless a carriage return and a line feed come together, the first character is looked at
alone. The hypothesis excludes the one place where two characters are one break. -/
theorem splitLines_cons {c : Char} {cs : List Char} (h : ∀ rest, c = '\r' → cs ≠ '\n' :: rest) :
    splitLines (c :: cs) = if isLineBreak c then [] :: splitLines cs else consLine c (splitLines cs) := by
  rw [splitLines]
  exact fun rest hc hcs => h rest hc hcs

theorem splitLines_lineFeed (cs : List Char) : splitLines ('\n' :: cs) = [] :: splitLines cs := by
  rw [splitLines_cons fun rest hc => absurd hc (by decide), if_pos isLineBreak_lineFeed]

theorem splitLines_return (cs : List Char) :
    splitLines ('\r' :: '\n' :: cs) = [] :: splitLines cs := by
  rw [splitLines]

/-- A character goes to the first of the lines, so lines behind them do not matter, provided that
there is a first one. -/
theorem consLine_append (c : Char) {lines : List (List Char)} (h : lines ≠ []) (more : List (List Char)) :
    consLine c (lines ++ more) = consLine c lines ++ more := by
  cases lines with
  | nil => exact absurd rfl h
  | cons line lines => rfl

theorem consLine_ne_nil (c : Char) (lines : List (List Char)) : consLine c lines ≠ [] := by
  cases lines <;> nofun

/-- A text that is not empty has a line, even if it consists of a break alone. -/
theorem splitLines_ne_nil {cs : List Char} (h : cs ≠ []) : splitLines cs ≠ [] := by
  fun_cases splitLines cs with
  | case1 => exact absurd rfl h
  | case2 cs => nofun
  | case3 c cs _ hbreak => nofun
  | case4 c cs _ hbreak => exact consLine_ne_nil _ _

/-- A text behind the first character leaves it alone as it was, unless that is a carriage return with
nothing behind it yet. -/
theorem seam_cases {c : Char} {cs : List Char} (h : ∀ rest, c = '\r' → cs ≠ '\n' :: rest) :
    (c = '\r' ∧ cs = []) ∨ ∀ more rest, c = '\r' → cs ++ more ≠ '\n' :: rest := by
  cases cs with
  | nil =>
    by_cases hc : c = '\r'
    · exact Or.inl ⟨hc, rfl⟩
    · exact Or.inr fun more rest hc' => absurd hc' hc
  | cons d ds =>
    right
    intro more rest hc heq
    rw [List.cons_append] at heq
    exact h ds hc (by rw [(List.cons.inj heq).1])

/-- **The lines of two texts with a line feed between them** are those of the first text, closed with
the line feed, and those of the second. -/
theorem splitLines_append (s t : List Char) :
    splitLines (s ++ '\n' :: t) = splitLines (s ++ ['\n']) ++ splitLines t := by
  -- on the splitting of the first text; its last character decides what the line feed joins with
  fun_induction splitLines s with
  | case1 =>
    rw [List.nil_append, List.nil_append, splitLines_lineFeed, splitLines_lineFeed]
    rfl
  | case2 cs ih =>
    simp only [List.cons_append, splitLines_return, ih]
  | case3 c cs hseam hbreak ih =>
    rcases seam_cases hseam with ⟨rfl, rfl⟩ | hmore
    · -- the carriage return and the line feed are one break
      simp only [List.nil_append, List.cons_append, splitLines_return]
      rfl
    · rw [List.cons_append, List.cons_append, splitLines_cons (hmore _), splitLines_cons (hmore _),
        if_pos hbreak, if_pos hbreak, ih, List.cons_append]
  | case4 c cs hseam hbreak ih =>
    rcases seam_cases hseam with ⟨rfl, rfl⟩ | hmore
    · exact absurd (by decide) hbreak
    · rw [List.cons_append, List.cons_append, splitLines_cons (hmore _), splitLines_cons (hmore _),
        if_neg hbreak, if_neg hbreak, ih, consLine_append c (splitLines_ne_nil (by simp))]

/-- **A line feed at the end** ends the last line, or it is a line of its own, and then an empty
one. Induction on the recursion of `splitLines`. The first case includes a text that ends in a
carriage return. -/
theorem splitLines_concat (s : List Char) :
    splitLines (s ++ ['\n']) = splitLines s ∨ splitLines (s ++ ['\n']) = splitLines s ++ [[]] := by
  fun_induction splitLines s with
  | case1 => exact Or.inr (splitLines_lineFeed [])
  | case2 cs ih =>
    simp only [List.cons_append, splitLines_return]
    rcases ih with ih | ih
    · exact Or.inl (by rw [ih])
    · exact Or.inr (by rw [ih])
  | case3 c cs hseam hbreak ih =>
    rcases seam_cases hseam with ⟨rfl, rfl⟩ | hmore
    · -- a carriage return at the end takes the line feed in
      exact Or.inl (splitLines_return [])
    · rw [List.cons_append, splitLines_cons (hmore _), if_pos hbreak, List.cons_append]
      rcases ih with ih | ih
      · exact Or.inl (by rw [ih])
      · exact Or.inr (by rw [ih])
  | case4 c cs hseam hbreak ih =>
    rcases seam_cases hseam with ⟨rfl, rfl⟩ | hmore
    · exact absurd (by decide) hbreak
    · rw [List.cons_append, splitLines_cons (hmore _), if_neg hbreak]
      rcases ih with ih | ih
      · exact Or.inl (by rw [ih])
      · rw [ih]
        -- the character opens a line of its own, which the line feed then closes
        cases hlines : splitLines cs with
        | nil => exact Or.inl rfl
        | cons line lines => exact Or.inr rfl

end Text

namespace Assembly

/-! ## Lines one after the other -/

/-- A line is skipped or assembled in front of the others. The equation is stated with `bind` and
`map`, so that the lemmas below rewrite with it and do not open `assembleLines`. -/
theorem assembleLines_cons (n : Nat) (line : List Char) (lines : List (List Char)) :
    assembleLines n (line :: lines) =
      if (cleanLine line).isEmpty then assembleLines (n + 1) lines
      else ((readInstruction (cleanLine line)).mapError (·.map fun e => ⟨n, .line e⟩)).bind fun i =>
        (assembleLines (n + 1) lines).map (i :: ·) := by
  rw [assembleLines]
  split
  · rfl
  · cases readInstruction (cleanLine line) with
    | error e => rfl
    | ok i => cases assembleLines (n + 1) lines <;> rfl

/-- The lines behind others are assembled with the numbers that they have there, if those before
them can be assembled. Induction over the first lines. -/
theorem assembleLines_append (n : Nat) (xs ys : List (List Char)) :
    assembleLines n (xs ++ ys) =
      (assembleLines n xs).bind fun p => (assembleLines (n + xs.length) ys).map (p ++ ·) := by
  induction xs generalizing n with
  | nil =>
    show assembleLines n ys = (assembleLines n ys).map ([] ++ ·)
    cases assembleLines n ys <;> rfl
  | cons line lines ih =>
    rw [List.cons_append, assembleLines_cons, assembleLines_cons, ih, List.length_cons, Nat.add_assoc,
      Nat.add_comm 1]
    -- a blank line is skipped on both sides; otherwise the first error decides
    split
    · rfl
    · cases readInstruction (cleanLine line) with
      | error e => rfl
      | ok i =>
        cases assembleLines (n + 1) lines with
        | error e => rfl
        | ok p => cases assembleLines (n + (lines.length + 1)) ys <;> rfl

/-- The same error so many lines further down. -/
def SourceError.moved (e : SourceError) (k : Nat) : SourceError :=
  { e with line := e.line + k }

/-- The numbers of the lines are counted and nothing else: numbering from further down moves the
error and leaves the program. Induction over the lines. -/
theorem assembleLines_add (n k : Nat) (lines : List (List Char)) :
    assembleLines (n + k) lines = (assembleLines n lines).mapError (·.map (·.moved k)) := by
  induction lines generalizing n with
  | nil => rfl
  | cons line lines ih =>
    rw [assembleLines_cons, assembleLines_cons, Nat.add_right_comm, ih]
    split
    · rfl
    · cases readInstruction (cleanLine line) with
      | error e => cases e <;> rfl
      | ok i => cases assembleLines (n + 1) lines <;> rfl

/-- An empty line at the end makes no difference, since it is skipped and nothing comes after it.
-/
theorem assembleLines_concat_nil (n : Nat) (lines : List (List Char)) :
    assembleLines n (lines ++ [[]]) = assembleLines n lines := by
  have hempty : assembleLines (n + lines.length) [[]] = .ok [] := by
    rw [assembleLines_cons]
    rfl
  rw [assembleLines_append, hempty]
  cases assembleLines n lines with
  | error e => rfl
  | ok p =>
    show Except.ok (p ++ []) = _
    rw [List.append_nil]

/-- Nor does a line feed at the end of a text, whichever case of `splitLines_concat` it is. -/
theorem assembleChars_concat (s : List Char) :
    assembleLines 1 (Text.splitLines (s ++ ['\n'])) = assembleChars s := by
  rcases Text.splitLines_concat s with h | h
  · rw [h, assembleChars]
  · rw [h, assembleLines_concat_nil, assembleChars]

/-- **Assembly of two texts with a line feed between them**, in one equation. The second text is
assembled by itself, and its error moves down by the lines of the first. -/
theorem assembleChars_append (s t : List Char) :
    assembleChars (s ++ '\n' :: t) =
      (assembleChars s).bind fun p =>
        ((assembleChars t).mapError
          (·.map (·.moved (Text.splitLines (s ++ ['\n'])).length))).map (p ++ ·) := by
  rw [assembleChars, Text.splitLines_append, assembleLines_append, assembleChars_concat,
    assembleLines_add]
  rfl

end Assembly

open Assembly

/-! ## The headline -/

/-- **Assembly is compositional.** For two sources with a line feed between them: an error in the first
is the error of the whole, with its line and message. If the first assembles, an error on a line of the
second is found that many lines further down, with the same message, as the first source takes up with
the line feed; a row of too many digits is reported as it is. If both assemble, so does the whole, to
the one program followed by the other. -/
theorem assemble_concatenation (s t : String) :
    (∀ e, assemble s = .error e → assemble (s ++ "\n" ++ t) = .error e)
      ∧ ∀ p, assemble s = .ok p →
          (∀ line fault, assemble t = .error (.invalid ⟨line, fault⟩) →
              assemble (s ++ "\n" ++ t)
                = .error (.invalid ⟨line + (Text.splitLines (s ++ "\n").toList).length, fault⟩))
          ∧ (∀ e, assemble t = .error (.tooManyDigits e) →
              assemble (s ++ "\n" ++ t) = .error (.tooManyDigits e))
          ∧ ∀ q, assemble t = .ok q → assemble (s ++ "\n" ++ t) = .ok (p ++ q) := by
  have hwhole : assemble (s ++ "\n" ++ t) = (assemble s).bind fun p =>
      ((assemble t).mapError
        (·.map (·.moved (Text.splitLines (s ++ "\n").toList).length))).map (p ++ ·) := by
    simp only [assemble, String.toList_append, List.append_assoc]
    exact assembleChars_append s.toList t.toList
  -- all three parts are read off this equation
  rw [hwhole]
  refine ⟨?_, ?_⟩
  · intro e hs
    rw [hs]
    rfl
  · intro p hs
    rw [hs]
    refine ⟨?_, ?_, ?_⟩
    · intro line fault ht
      rw [ht]
      rfl
    · intro e ht
      rw [ht]
      rfl
    · intro q ht
      rw [ht]
      rfl

/-- The carriage return at the end of the first source and the line feed are one break, so what is on the
second line of the other source is on the third line of the whole. -/
theorem assemble_concatenation_across_return :
    let fault : SourceFault := .line (.unknownOpcode ['B', 'o', 'g', 'u', 's'])
    assemble "noop\r" = .ok [.noop]
      ∧ assemble "exit\x0bBogus 1" = .error (.invalid ⟨2, fault⟩)
      ∧ assemble ("noop\r" ++ "\n" ++ "exit\x0bBogus 1") = .error (.invalid ⟨3, fault⟩)
      ∧ assemble ("noop\r" ++ "\n" ++ "exit") = .ok [.noop, .exit] := by
  intro fault
  have hfirst : assemble "noop\r" = .ok [.noop] := by rfl
  have hsecond : assemble "exit\x0bBogus 1" = .error (.invalid ⟨2, fault⟩) := by rfl
  have hbreak := ((assemble_concatenation "noop\r" "exit\x0bBogus 1").2 _ hfirst).1 _ _ hsecond
  have hboth := ((assemble_concatenation "noop\r" "exit").2 _ hfirst).2.2 [.exit] rfl
  exact ⟨hfirst, hsecond, hbreak, hboth⟩

end StackMachine
