import Mathlib
import StackMachine.Value.Literal

/-!
# The frame of a literal

A literal is read from both of its ends: blanks are taken off, the tag is what comes first, and what is
left stands in parentheses. Here it is told from left to right, as a row of parts. The two agree on every
text: a part ends where the reader stops, because no character of it can belong to the next one.

* **`Text.exists_padding`**, **`Text.trim_padded`**: blanks at the two ends of a text.
* **`Value.Framed`**: tag and body with the blanks around them.
* **`Value.splitLiteral?_eq_some_iff`**: the headline.
-/

namespace StackMachine

/-! ## Blanks -/

namespace Text

/-- The ranges of the blank characters. -/
def blankRanges : List (Nat × Nat) :=
  [(0x09, 0x0D), (0x1C, 0x20), (0x85, 0x85), (0xA0, 0xA0), (0x1680, 0x1680), (0x2000, 0x200A),
    (0x2028, 0x2029), (0x202F, 0x202F), (0x205F, 0x205F), (0x3000, 0x3000)]

/-- A character is no blank just when it lies in none of the ranges, which arithmetic can decide.
-/
theorem isBlank_eq_false_iff {c : Char} :
    isBlank c = false ↔ ∀ r ∈ blankRanges, c.toNat < r.1 ∨ r.2 < c.toNat := by
  simp only [blankRanges, List.forall_mem_cons, List.not_mem_nil, false_imp_iff, implies_true, and_true,
    isBlank, Bool.or_eq_false_iff, Bool.and_eq_false_iff, decide_eq_false_iff_not, beq_eq_false_iff_ne]
  omega

/-- No character that is visible in ASCII is a blank, so names, signs and digits of that range end
no text early. -/
theorem isBlank_of_ascii {c : Char} (hlow : 0x21 ≤ c.toNat) (hhigh : c.toNat ≤ 0x7E) :
    isBlank c = false := by
  have hbeside : ∀ r ∈ blankRanges, r.2 < 0x21 ∨ 0x7E < r.1 := by decide
  rw [isBlank_eq_false_iff]
  intro r hr
  have := hbeside r hr
  omega

theorem isBlank_of_isAlphanum {c : Char} (h : c.isAlphanum = true) : isBlank c = false := by
  simp [Char.isAlphanum, Char.isAlpha, Char.isUpper, Char.isLower, Char.isDigit,
    UInt32.le_iff_toNat_le] at h
  apply isBlank_of_ascii <;> omega

/-! ## Blanks at the ends -/

/-- A text of blanks only, or of nothing. -/
def IsPadding (cs : List Char) : Prop :=
  ∀ c ∈ cs, isBlank c = true

/-- A text that neither starts nor ends with a blank. -/
structure IsTrimmed (cs : List Char) : Prop where
  head : ∀ c ∈ cs.head?, isBlank c = false
  last : ∀ c ∈ cs.getLast?, isBlank c = false

variable {cs w w' : List Char}

theorem isTrimmed_of_forall (h : ∀ c ∈ cs, isBlank c = false) : IsTrimmed cs :=
  ⟨fun c hc => h c (List.mem_of_mem_head? hc), fun c hc => h c (List.mem_of_mem_getLast? hc)⟩

theorem IsPadding.reverse (h : IsPadding w) : IsPadding w.reverse :=
  fun c hc => h c (List.mem_reverse.mp hc)

theorem exists_padding_left (cs : List Char) : ∃ w, IsPadding w ∧ cs = w ++ trimLeft cs :=
  ⟨cs.takeWhile isBlank, fun _ hc => List.mem_takeWhile_imp hc, List.takeWhile_append_dropWhile.symm⟩

theorem exists_padding_right (cs : List Char) : ∃ w, IsPadding w ∧ cs = trimRight cs ++ w := by
  obtain ⟨w, hw, hcs⟩ := exists_padding_left cs.reverse
  refine ⟨w.reverse, hw.reverse, ?_⟩
  have hreverse := congrArg List.reverse hcs
  rwa [List.reverse_reverse, List.reverse_append] at hreverse

/-- What is taken off a text are blanks, at either end. -/
theorem exists_padding (cs : List Char) :
    ∃ w w', IsPadding w ∧ IsPadding w' ∧ cs = w ++ trim cs ++ w' := by
  obtain ⟨w, hw, hleft⟩ := exists_padding_left cs
  obtain ⟨w', hw', hright⟩ := exists_padding_right (trimLeft cs)
  refine ⟨w, w', hw, hw', ?_⟩
  rw [List.append_assoc, trim, ← hright, ← hleft]

theorem isBlank_head_trimLeft (cs : List Char) : ∀ c ∈ (trimLeft cs).head?, isBlank c = false := by
  intro c hc
  have hhead := List.head?_dropWhile_not isBlank cs
  rw [trimLeft, Option.mem_def] at hc
  rwa [hc] at hhead

/-- What is left of a text has no blanks at its ends. Trimming on the right does not bring a blank
to the front. -/
theorem isTrimmed_trim (cs : List Char) : IsTrimmed (trim cs) := by
  constructor
  · intro c hc
    obtain ⟨w, -, hright⟩ := exists_padding_right (trimLeft cs)
    apply isBlank_head_trimLeft cs
    rw [hright, List.head?_append, ← trim, Option.mem_def.mp hc]
    rfl
  · intro c hc
    rw [trim, trimRight, List.getLast?_reverse] at hc
    exact isBlank_head_trimLeft _ c hc

theorem trimLeft_padded (hw : IsPadding w) (cs : List Char) : trimLeft (w ++ cs) = trimLeft cs :=
  List.dropWhile_append_of_pos hw

theorem trimLeft_cons {c : Char} (h : isBlank c = false) (cs : List Char) :
    trimLeft (c :: cs) = c :: cs :=
  List.dropWhile_cons_of_neg (by simp [h])

theorem trimRight_padded (cs : List Char) (hw : IsPadding w) : trimRight (cs ++ w) = trimRight cs := by
  rw [trimRight, List.reverse_append, List.dropWhile_append_of_pos hw.reverse, trimRight]

/-- A text without blanks at its ends is left alone. -/
theorem IsTrimmed.trim_eq (h : IsTrimmed cs) : trim cs = cs := by
  have hleft : ∀ ds : List Char, (∀ c ∈ ds.head?, isBlank c = false) → trimLeft ds = ds := by
    intro ds hds
    cases ds with
    | nil => rfl
    | cons d ds => exact trimLeft_cons (hds d rfl) ds
  have hlast : ∀ c ∈ cs.reverse.head?, isBlank c = false := by
    rw [List.head?_reverse]
    exact h.last
  have hright : cs.reverse.dropWhile isBlank = cs.reverse := hleft cs.reverse hlast
  rw [trim, hleft cs h.head, trimRight, hright, List.reverse_reverse]

/-- **Blanks around a text are found again**: trimming gives back what they were put around. -/
theorem trim_padded (hw : IsPadding w) (hw' : IsPadding w') (h : IsTrimmed cs) :
    trim (w ++ cs ++ w') = cs := by
  rw [trim, List.append_assoc, trimLeft_padded hw]
  cases cs with
  | nil =>
    have hnothing : trimLeft w' = [] := List.dropWhile_eq_nil_iff.mpr hw'
    rw [List.nil_append, hnothing]
    rfl
  | cons c cs =>
    have hc : isBlank c = false := h.head c rfl
    have hself := h.trim_eq
    rw [trim, trimLeft_cons hc] at hself
    rw [List.cons_append, trimLeft_cons hc, ← List.cons_append, trimRight_padded _ hw', hself]

end Text

open Text

/-! ## The frame of a literal -/

namespace Value

/-- A tag and a body as they stand in a literal of any kind: the tag starts with a letter and goes on with
letters and digits, the body is in parentheses and holds no line feed, and blanks may stand in all five
places around them. -/
inductive Framed (tag body : List Char) : List Char → Prop where
  | mk {w₁ w₂ w₃ w₄ w₅ : List Char} (padding : ∀ w ∈ [w₁, w₂, w₃, w₄, w₅], IsPadding w)
      (alphanum : ∀ c ∈ tag, c.isAlphanum = true) (alpha : ∃ c cs, tag = c :: cs ∧ c.isAlpha = true)
      (trimmed : IsTrimmed body) (unbroken : '\n' ∉ body) :
      Framed tag body (w₁ ++ tag ++ w₂ ++ '(' :: (w₃ ++ body ++ w₄ ++ ')' :: w₅))

theorem insideParentheses?_append (body : List Char) :
    insideParentheses? ('(' :: (body ++ [')'])) = some body := by
  simp [insideParentheses?]

/-- The inside of a pair of parentheses is found just when the text is such a pair, at its very
ends. -/
theorem insideParentheses?_eq_some_iff {cs inner : List Char} :
    insideParentheses? cs = some inner ↔ cs = '(' :: (inner ++ [')']) := by
  constructor
  · intro h
    unfold insideParentheses? at h
    split at h
    · next rest =>
      split at h
      · next inner' hrest =>
        obtain rfl := Option.some.inj h
        have hreverse := congrArg List.reverse hrest
        rw [List.reverse_reverse, List.reverse_cons] at hreverse
        rw [hreverse]
      · cases h
    · cases h
  · rintro rfl
    exact insideParentheses?_append inner

/-- Where the reader stops, a part ends. Each of the places where it skips blanks is one of the
paddings of the frame. -/
theorem framed_of_splitLiteral? {text tag body : List Char}
    (h : splitLiteral? text = some ⟨tag, body⟩) : Framed tag body text := by
  obtain ⟨w₁, w₅, hw₁, hw₅, htext⟩ := exists_padding text
  obtain ⟨w₂, hw₂, hrest⟩ := exists_padding_left ((trim text).dropWhile Char.isAlphanum)
  have hparts : (trim text).takeWhile Char.isAlphanum ++ (trim text).dropWhile Char.isAlphanum
      = trim text := List.takeWhile_append_dropWhile
  have halphanum : ∀ c ∈ (trim text).takeWhile Char.isAlphanum, c.isAlphanum = true :=
    fun _ hc => List.mem_takeWhile_imp hc
  simp only [splitLiteral?] at h
  split at h
  · next c tail inner htag hinner =>
    split at h
    · next hcond =>
      obtain ⟨halpha, hbreak⟩ := Bool.and_eq_true_iff.mp hcond
      obtain ⟨rfl, rfl⟩ := LiteralParts.mk.inj (Option.some.inj h)
      obtain ⟨w₃, w₄, hw₃, hw₄, hpadded⟩ := exists_padding inner
      rw [insideParentheses?_eq_some_iff] at hinner
      rw [hinner] at hrest
      -- the text is put together again from what was skipped and what was taken
      have hwhole : text = w₁ ++ (trim text).takeWhile Char.isAlphanum ++ w₂
          ++ '(' :: (w₃ ++ trim inner ++ w₄ ++ ')' :: w₅) := by
        rw [← hpadded]
        nth_rw 1 [htext, ← hparts, hrest]
        simp
      have hunbroken : '\n' ∉ trim inner := by simpa using hbreak
      have hpadding : ∀ w ∈ [w₁, w₂, w₃, w₄, w₅], IsPadding w := by
        simp [hw₁, hw₂, hw₃, hw₄, hw₅]
      have hframed := Framed.mk hpadding halphanum ⟨c, tail, htag, halpha⟩ (isTrimmed_trim inner)
        hunbroken
      rwa [← hwhole] at hframed
    · cases h
  · cases h

/-- Neither a blank nor a parenthesis prolongs a tag, so the reader stops where the tag does. -/
theorem tag_ends {w : List Char} (hw : IsPadding w) (cs : List Char) :
    ∀ c ∈ (w ++ '(' :: cs).head?, ¬ c.isAlphanum = true := by
  intro c hc halphanum
  cases w with
  | nil =>
    obtain rfl := Option.some.inj hc
    exact absurd halphanum (by decide)
  | cons b w =>
    obtain rfl := Option.some.inj hc
    exact Bool.false_ne_true ((isBlank_of_isAlphanum halphanum).symm.trans (hw b List.mem_cons_self))

/-- The letters and digits at the front of a text are taken as the tag, up to the first character
that is neither. -/
theorem span_tag {tag rest : List Char} (htag : ∀ c ∈ tag, c.isAlphanum = true)
    (hrest : ∀ c ∈ rest.head?, ¬ c.isAlphanum = true) :
    (tag ++ rest).takeWhile Char.isAlphanum = tag ∧ (tag ++ rest).dropWhile Char.isAlphanum = rest := by
  rw [List.takeWhile_append_of_pos htag, List.dropWhile_append_of_pos htag]
  cases rest with
  | nil => exact ⟨List.append_nil tag, rfl⟩
  | cons c cs =>
    have hc := hrest c rfl
    rw [List.takeWhile_cons_of_neg hc, List.dropWhile_cons_of_neg hc, List.append_nil]
    exact ⟨rfl, rfl⟩

/-- The frame of a literal is found again: the reader skips the paddings and takes the tag and the
body out. -/
theorem Framed.splitLiteral? {text tag body : List Char} (h : Framed tag body text) :
    splitLiteral? text = some ⟨tag, body⟩ := by
  obtain @⟨w₁, w₂, w₃, w₄, w₅, padding, alphanum, ⟨c, cs, htag, halpha⟩, trimmed, unbroken⟩ := h
  obtain ⟨hw₁, hw₂, hw₃, hw₄, hw₅⟩ : IsPadding w₁ ∧ IsPadding w₂ ∧ IsPadding w₃ ∧ IsPadding w₄
      ∧ IsPadding w₅ := by simpa using padding
  -- the outer blanks are trimmed, and what is left starts with a letter and ends with a parenthesis
  have houter : trim (w₁ ++ tag ++ w₂ ++ '(' :: (w₃ ++ body ++ w₄ ++ ')' :: w₅))
      = tag ++ (w₂ ++ '(' :: (w₃ ++ body ++ w₄ ++ [')'])) := by
    have htrimmed : IsTrimmed (tag ++ (w₂ ++ '(' :: (w₃ ++ body ++ w₄ ++ [')']))) := by
      constructor
      · rw [htag]
        rintro d ⟨⟩
        exact isBlank_of_isAlphanum (alphanum c (htag ▸ List.mem_cons_self))
      · have hlast : tag ++ (w₂ ++ '(' :: (w₃ ++ body ++ w₄ ++ [')']))
            = tag ++ w₂ ++ '(' :: (w₃ ++ body ++ w₄) ++ [')'] := by simp
        rw [hlast, List.getLast?_concat]
        rintro d ⟨⟩
        rfl
    rw [← trim_padded hw₁ hw₅ htrimmed]
    simp
  -- the tag ends where a blank or the parenthesis follows
  obtain ⟨htake, hdrop⟩ := span_tag alphanum (tag_ends hw₂ (w₃ ++ body ++ w₄ ++ [')']))
  have hopen : trimLeft (w₂ ++ '(' :: (w₃ ++ body ++ w₄ ++ [')']))
      = '(' :: (w₃ ++ body ++ w₄ ++ [')']) := by
    rw [trimLeft_padded hw₂, trimLeft_cons (by decide)]
  have hline : body.contains '\n' = false := by
    rwa [List.contains_eq_mem, decide_eq_false_iff_not]
  simp only [Value.splitLiteral?, houter, htake, hdrop, hopen, insideParentheses?_append]
  simp only [htag, halpha, trim_padded hw₃ hw₄ trimmed, hline]
  rfl

/-- **The two readings of a frame agree.** With this the reader can be replaced by the grammar
wherever a literal is taken apart. -/
theorem splitLiteral?_eq_some_iff {text tag body : List Char} :
    splitLiteral? text = some ⟨tag, body⟩ ↔ Framed tag body text :=
  ⟨framed_of_splitLiteral?, Framed.splitLiteral?⟩

end Value

end StackMachine
