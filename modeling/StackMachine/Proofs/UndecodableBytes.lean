import Mathlib
import StackMachine.Proofs.Concatenation
import StackMachine.Proofs.Encoding

/-!
# Bytes that are no text

A file that is not UTF-8 is refused at the first bytes that are no character, and the error names a line.
The bytes before are counted for line feeds. The assembler counts the lines of a text by ten line breaks,
of which a carriage return and a line feed together are one. So the line that is named is the assembler's
exactly if the text before has no other breaks than line feeds, and it is too small by their number if it has.

* **`Text.Utf8.character_cases`**: bytes start with a character, or the reader stops at the first of them.
* **`Text.Utf8.encoded_or_textBefore`**: bytes are a text, or a text and then no character.
* **`Text.Utf8.TextBefore.decode`**: the reader stops behind this text.
* **`Text.length_splitLines_concat`**: lines are counted by line feeds and other breaks.
* **`undecodable_bytes_line`**: the headline.
-/

namespace StackMachine

open Text

namespace Text.Utf8

/-! ## The bytes of one character -/

theorem eq_trailing {b : UInt8} (hlow : 0x80 ≤ b.toNat) (hhigh : b.toNat ≤ 0xBF) :
    b = trailing b.toNat := by
  apply UInt8.toNat_inj.mp
  rw [toNat_trailing]
  omega

/-- Only the last six bits count, whatever stands above them. -/
theorem trailing_add (q n : Nat) : trailing (64 * q + n % 64) = trailing n := by
  rw [trailing, trailing, Nat.mul_add_mod, Nat.mod_mod]

theorem toNat_ofNat {n : Nat} (h : n < 0xD800 ∨ (0xDFFF < n ∧ n < 0x110000)) :
    (Char.ofNat n).toNat = n := by
  rw [Char.toNat_ofNat, if_pos h]

section Pending

variable (i : Nat) {start low high bits : Nat} (hlow : 0x80 ≤ low) (hhigh : high ≤ 0xBF)
include hlow hhigh

/-- **One more byte**: it is one of the range, or the reader stops where the character was opened.
The error names that place and not the byte. -/
theorem byte_cases (needed : Nat) (bs : List UInt8) :
    (∃ reason, decodeFrom i (some ⟨start, needed, low, high, bits⟩) bs = .error ⟨start, reason⟩)
      ∨ ∃ n rest, bs = trailing n :: rest ∧ low ≤ n % 64 + 128 ∧ n % 64 + 128 ≤ high := by
  cases bs with
  | nil => exact .inl ⟨.endOfData, rfl⟩
  | cons b bs =>
    by_cases hb : low ≤ b.toNat ∧ b.toNat ≤ high
    · right
      refine ⟨b.toNat, bs, ?_, by omega, by omega⟩
      rw [← eq_trailing (by omega) (by omega)]
    · left
      refine ⟨.continuationByte, ?_⟩
      rw [decodeFrom, if_neg hb]

/-- Two bytes more. The second may be any trailing byte. -/
theorem two_bytes_cases (bs : List UInt8) :
    (∃ reason, decodeFrom i (some ⟨start, 2, low, high, bits⟩) bs = .error ⟨start, reason⟩)
      ∨ ∃ m n rest, bs = trailing m :: trailing n :: rest ∧ low ≤ m % 64 + 128 ∧ m % 64 + 128 ≤ high := by
  rcases byte_cases i hlow hhigh 2 bs with hstop | ⟨m, rest, rfl, hm⟩
  · exact .inl hstop
  · rw [decodeFrom_middle i rest hm]
    rcases byte_cases (i + 1) (le_refl 0x80) (le_refl 0xBF) 1 rest with hstop | ⟨n, rest, rfl, -⟩
    · exact .inl hstop
    · exact .inr ⟨m, n, rest, rfl, hm⟩

/-- Several bytes more, one after the other; only the first of them has a range that the opening
byte narrows. -/
theorem three_bytes_cases (bs : List UInt8) :
    (∃ reason, decodeFrom i (some ⟨start, 3, low, high, bits⟩) bs = .error ⟨start, reason⟩)
      ∨ ∃ l m n rest, bs = trailing l :: trailing m :: trailing n :: rest
          ∧ low ≤ l % 64 + 128 ∧ l % 64 + 128 ≤ high := by
  rcases byte_cases i hlow hhigh 3 bs with hstop | ⟨l, rest, rfl, hl⟩
  · exact .inl hstop
  · rw [decodeFrom_middle i rest hl]
    rcases two_bytes_cases (i + 1) (le_refl 0x80) (le_refl 0xBF) rest with hstop | ⟨m, n, rest, rfl, -⟩
    · exact .inl hstop
    · exact .inr ⟨l, m, n, rest, rfl, hl⟩

end Pending

/-- What a byte opens: a character of two, three or four bytes, with the range of the second one. -/
inductive Opened (start : Nat) : Nat → Pending → Prop where
  | two {q : Nat} (short : 2 ≤ q) (bound : q < 32) : Opened start (q + 192) ⟨start, 1, 0x80, 0xBF, q⟩
  | three {q low high : Nat} (bound : q < 16) (hlow : 0x80 ≤ low) (hhigh : high ≤ 0xBF)
      (short : q = 0 → 0xA0 ≤ low) (surrogate : q = 13 → high ≤ 0x9F) :
      Opened start (q + 224) ⟨start, 2, low, high, q⟩
  | four {q low high : Nat} (bound : q ≤ 4) (hlow : 0x80 ≤ low) (hhigh : high ≤ 0xBF)
      (short : q = 0 → 0x90 ≤ low) (large : q = 4 → high ≤ 0x8F) :
      Opened start (q + 240) ⟨start, 3, low, high, q⟩

/-- The bytes that open a character, by the number of those that follow them. -/
theorem opened_of_opened? {start byte : Nat} {p : Pending} (h : Pending.opened? start byte = some p) :
    Opened start byte p := by
  unfold Pending.opened? at h
  -- two bytes; three with a narrowed range at either end or none; four likewise
  split_ifs at h with h₁ h₂ h₃ h₄ h₅ h₆ h₇ h₈
  · obtain rfl := Option.some.inj h
    obtain ⟨q, rfl⟩ := Nat.exists_eq_add_of_le' (show 192 ≤ byte by omega)
    rw [Nat.add_sub_cancel]
    exact .two (by omega) (by omega)
  · obtain rfl := Option.some.inj h
    subst h₃
    exact .three (q := 0) (by omega) (by omega) (by omega) (by omega) (by omega)
  · obtain rfl := Option.some.inj h
    subst h₄
    exact .three (q := 13) (by omega) (by omega) (by omega) (by omega) (by omega)
  · obtain rfl := Option.some.inj h
    obtain ⟨q, rfl⟩ := Nat.exists_eq_add_of_le' (show 224 ≤ byte by omega)
    rw [Nat.add_sub_cancel]
    exact .three (by omega) (by omega) (by omega) (by omega) (by omega)
  · obtain rfl := Option.some.inj h
    subst h₆
    exact .four (q := 0) (by omega) (by omega) (by omega) (by omega) (by omega)
  · obtain rfl := Option.some.inj h
    subst h₇
    exact .four (q := 4) (by omega) (by omega) (by omega) (by omega) (by omega)
  · obtain rfl := Option.some.inj h
    obtain ⟨q, rfl⟩ := Nat.exists_eq_add_of_le' (show 240 ≤ byte by omega)
    rw [Nat.add_sub_cancel]
    exact .four (by omega) (by omega) (by omega) (by omega) (by omega)

/-- **Where a character is opened, it follows**, or the reader stops where it was opened. The
bytes that follow are those of a character, because the range of the second one excludes
surrogates, overlong forms and what is above the last character. -/
theorem character_of_opened {i : Nat} {b : UInt8} {p : Pending} (h : Opened i b.toNat p) (bs : List UInt8) :
    (∃ reason, decodeFrom (i + 1) (some p) bs = .error ⟨i, reason⟩)
      ∨ ∃ c rest, b :: bs = String.utf8EncodeChar c ++ rest := by
  have hb : b = UInt8.ofNat b.toNat := UInt8.ofNat_toNat.symm
  generalize b.toNat = byte at h hb
  -- in each case the code is made up from the bits, and its bytes are those that were read
  cases h with
  | @two q short bound =>
    rcases byte_cases (i + 1) (le_refl 0x80) (le_refl 0xBF) 1 bs with hstop | ⟨n, rest, rfl, -⟩
    · exact .inl hstop
    · right
      have hcode : (Char.ofNat (64 * q + n % 64)).toNat = 64 * q + n % 64 := toNat_ofNat (by omega)
      refine ⟨Char.ofNat (64 * q + n % 64), rest, ?_⟩
      rw [encodeChar_two (by omega) (by omega), hcode, trailing_add, hb,
        show (64 * q + n % 64) / 64 = q by omega]
      rfl
  | @three q low high bound hlow hhigh short surrogate =>
    rcases two_bytes_cases (i + 1) hlow hhigh bs with hstop | ⟨m, n, rest, rfl, hm⟩
    · exact .inl hstop
    · right
      have hcode : (Char.ofNat (64 * (64 * q + m % 64) + n % 64)).toNat
          = 64 * (64 * q + m % 64) + n % 64 := toNat_ofNat (by omega)
      refine ⟨Char.ofNat (64 * (64 * q + m % 64) + n % 64), rest, ?_⟩
      rw [encodeChar_three (by omega) (by omega), hcode, trailing_add, hb,
        show (64 * (64 * q + m % 64) + n % 64) / 64 = 64 * q + m % 64 by omega, trailing_add,
        show (64 * (64 * q + m % 64) + n % 64) / 4096 = q by omega]
      rfl
  | @four q low high bound hlow hhigh short large =>
    rcases three_bytes_cases (i + 1) hlow hhigh bs with hstop | ⟨l, m, n, rest, rfl, hl⟩
    · exact .inl hstop
    · right
      have hcode : (Char.ofNat (64 * (64 * (64 * q + l % 64) + m % 64) + n % 64)).toNat
          = 64 * (64 * (64 * q + l % 64) + m % 64) + n % 64 := toNat_ofNat (by omega)
      refine ⟨Char.ofNat (64 * (64 * (64 * q + l % 64) + m % 64) + n % 64), rest, ?_⟩
      rw [encodeChar_four (by omega), hcode, trailing_add, hb,
        show (64 * (64 * (64 * q + l % 64) + m % 64) + n % 64) / 64 = 64 * (64 * q + l % 64) + m % 64
          by omega, trailing_add,
        show (64 * (64 * (64 * q + l % 64) + m % 64) + n % 64) / 4096 = 64 * q + l % 64 by omega,
        trailing_add, show (64 * (64 * (64 * q + l % 64) + m % 64) + n % 64) / 262144 = q by omega]
      rfl

/-- **Bytes start with a character, or the reader stops at the first of them.** The first byte is
a character itself, opens one or does neither. -/
theorem character_cases (i : Nat) {bs : List UInt8} (h : bs ≠ []) :
    (∃ c rest, bs = String.utf8EncodeChar c ++ rest)
      ∨ ∃ reason, decodeFrom i none bs = .error ⟨i, reason⟩ := by
  cases bs with
  | nil => exact absurd rfl h
  | cons b bs =>
    by_cases hascii : b.toNat < 0x80
    · left
      have hcode : (Char.ofNat b.toNat).toNat = b.toNat := toNat_ofNat (by omega)
      refine ⟨Char.ofNat b.toNat, bs, ?_⟩
      rw [encodeChar_one (by omega), hcode, UInt8.ofNat_toNat]
      rfl
    · cases hopened : Pending.opened? i b.toNat with
      | none =>
        right
        refine ⟨.startByte, ?_⟩
        rw [decodeFrom, if_neg hascii, hopened]
      | some p =>
        rw [decodeFrom_opening i bs (by omega) hopened]
        rcases character_of_opened (opened_of_opened? hopened) bs with hstop | hcharacter
        · exact .inr hstop
        · exact .inl hcharacter

/-! ## The text before the first bytes that are no character -/

/-- Bytes that start with no character. -/
def Undecodable (bytes : List UInt8) : Prop :=
  bytes ≠ [] ∧ ∀ c, ¬ String.utf8EncodeChar c <+: bytes

/-- The text that is encoded before the first bytes that are no character. -/
def TextBefore (bytes : List UInt8) (cs : List Char) : Prop :=
  ∃ rest, bytes = encode cs ++ rest ∧ Undecodable rest

theorem TextBefore.cons {bytes : List UInt8} {cs : List Char} (h : TextBefore bytes cs) (c : Char) :
    TextBefore (String.utf8EncodeChar c ++ bytes) (c :: cs) := by
  obtain ⟨rest, hbytes, hrest⟩ := h
  refine ⟨rest, ?_, hrest⟩
  rw [hbytes, encode_cons, List.append_assoc]

/-- **Bytes are a text, or a text and then no character.** Induction on the length of the bytes, a
character at a time. -/
theorem encoded_or_textBefore (bytes : List UInt8) :
    (∃ cs, bytes = encode cs) ∨ ∃ cs, TextBefore bytes cs := by
  by_cases hempty : bytes = []
  · exact .inl ⟨[], hempty⟩
  · by_cases hcharacter : ∃ c rest, bytes = String.utf8EncodeChar c ++ rest
    · -- a character is taken off, and what is left is shorter
      obtain ⟨c, rest, hbytes⟩ := hcharacter
      have hshorter : rest.length < bytes.length := by
        rw [hbytes, List.length_append, String.length_utf8EncodeChar]
        have := c.utf8Size_pos
        omega
      rcases encoded_or_textBefore rest with ⟨cs, hcs⟩ | ⟨cs, hcs⟩
      · exact .inl ⟨c :: cs, by rw [hbytes, hcs, encode_cons]⟩
      · rw [hbytes]
        exact .inr ⟨c :: cs, hcs.cons c⟩
    · refine .inr ⟨[], bytes, rfl, hempty, ?_⟩
      intro c hprefix
      obtain ⟨rest, hrest⟩ := hprefix
      exact hcharacter ⟨c, rest, hrest.symm⟩
  termination_by bytes.length

/-- **The reader stops behind this text**: the error names the first byte that is none of it. -/
theorem TextBefore.decode {bytes : List UInt8} {cs : List Char} (h : TextBefore bytes cs) :
    ∃ reason, decode bytes = .error ⟨(encode cs).length, reason⟩ := by
  obtain ⟨rest, hbytes, hne, hnone⟩ := h
  rw [hbytes, Utf8.decode, decodeFrom_encode, Nat.zero_add]
  rcases character_cases (encode cs).length hne with ⟨c, more, hcharacter⟩ | ⟨reason, hstop⟩
  · exact absurd ⟨more, hcharacter.symm⟩ (hnone c)
  · rw [hstop]
    exact ⟨reason, rfl⟩

theorem encode_injective {cs ds : List Char} (h : encode cs = encode ds) : cs = ds := by
  have hread := decode_encode cs
  rw [h, decode_encode] at hread
  exact (Except.ok.inj hread).symm

/-- There is only one such text, since the reader stops at one place. -/
theorem TextBefore.unique {bytes : List UInt8} {cs ds : List Char} (hcs : TextBefore bytes cs)
    (hds : TextBefore bytes ds) : cs = ds := by
  obtain ⟨reason, hstop⟩ := hcs.decode
  obtain ⟨reason', hstop'⟩ := hds.decode
  have hlength : (encode cs).length = (encode ds).length := by
    rw [hstop] at hstop'
    exact (Malformed.mk.inj (Except.error.inj hstop')).1
  obtain ⟨rest, hbytes, -⟩ := hcs
  obtain ⟨rest', hbytes', -⟩ := hds
  exact encode_injective (List.append_inj (hbytes.symm.trans hbytes') hlength).1

/-- What the reader stops at has no text before it. It is used where the bytes are known to fail
at once. -/
theorem undecodable_of_decode {bytes : List UInt8} {reason : Reason}
    (h : decode bytes = .error ⟨0, reason⟩) : Undecodable bytes := by
  rcases encoded_or_textBefore bytes with ⟨cs, hbytes⟩ | ⟨cs, htext⟩
  · rw [hbytes, decode_encode] at h
    cases h
  · obtain ⟨reason', hstop⟩ := htext.decode
    obtain ⟨rest, hbytes, hrest⟩ := htext
    rw [h] at hstop
    have hlength := (Malformed.mk.inj (Except.error.inj hstop)).1
    rw [List.length_eq_zero_iff.mp hlength.symm] at hbytes
    rw [hbytes]
    exact hrest

end Text.Utf8

/-! ## Lines -/

namespace Text

/-- Whether a text starts with a line break that is neither a line feed nor a carriage return before one. -/
def startsOtherBreak : List Char → Bool
  | [] => false
  | c :: cs => isLineBreak c && c != '\n' && !(c == '\r' && cs.head? == some '\n')

/-- At how many places of a text such a line break stands. -/
def otherBreaks (cs : List Char) : Nat :=
  cs.tails.countP startsOtherBreak

theorem otherBreaks_cons (c : Char) (cs : List Char) :
    otherBreaks (c :: cs) = otherBreaks cs + if startsOtherBreak (c :: cs) then 1 else 0 := by
  rw [otherBreaks, List.tails, List.countP_cons, otherBreaks]

/-- A line break is looked at alone, unless a carriage return and a line feed come together, which
count as one. -/
theorem startsOtherBreak_cons {c : Char} {cs : List Char} (hseam : ∀ rest, c = '\r' → cs ≠ '\n' :: rest) :
    startsOtherBreak (c :: cs) = (isLineBreak c && c != '\n') := by
  have hpair : (c == '\r' && cs.head? == some '\n') = false := by
    rw [Bool.eq_false_iff]
    intro htogether
    obtain ⟨hc, hhead⟩ := (Bool.and_eq_true_iff).mp htogether
    obtain ⟨rest, hrest⟩ := List.head?_eq_some_iff.mp (beq_iff_eq.mp hhead)
    exact hseam rest (beq_iff_eq.mp hc) hrest
  rw [startsOtherBreak, hpair, Bool.not_false, Bool.and_true]

theorem length_consLine {c : Char} {lines : List (List Char)} (h : lines ≠ []) :
    (consLine c lines).length = lines.length := by
  cases lines with
  | nil => exact absurd rfl h
  | cons line lines => rfl

/-- A carriage return is not joined with a character that is no line feed, so the first character
is looked at alone here too. -/
theorem splitLines_concat_cons {c x : Char} {cs : List Char} (hx : isLineBreak x = false)
    (hseam : ∀ rest, c = '\r' → cs ≠ '\n' :: rest) :
    splitLines (c :: (cs ++ [x])) =
      if isLineBreak c then [] :: splitLines (cs ++ [x]) else consLine c (splitLines (cs ++ [x])) := by
  apply splitLines_cons
  intro rest hc heq
  rcases seam_cases hseam with ⟨-, hnil⟩ | hmore
  · rw [hnil, List.nil_append] at heq
    exact ne_of_isLineBreak hx isLineBreak_lineFeed (List.cons.inj heq).1
  · exact hmore [x] rest hc heq

/-- **The lines of a text that goes on**, counted by the line feeds and the other breaks before its last
character. -/
theorem length_splitLines_concat (cs : List Char) {x : Char} (hx : isLineBreak x = false) :
    (splitLines (cs ++ [x])).length = 1 + cs.count '\n' + otherBreaks cs := by
  fun_induction splitLines cs with
  | case1 =>
    have hreturn : x ≠ '\r' := ne_of_isLineBreak hx isLineBreak_return
    rw [List.nil_append, splitLines_cons fun _ hc => absurd hc hreturn, hx]
    rfl
  | case2 cs ih =>
    show (splitLines ('\r' :: '\n' :: (cs ++ [x]))).length = _
    have hreturn : startsOtherBreak ('\r' :: '\n' :: cs) = false := rfl
    have hfeed : startsOtherBreak ('\n' :: cs) = false := rfl
    rw [splitLines_return, List.length_cons, ih, otherBreaks_cons, otherBreaks_cons, hreturn, hfeed,
      if_neg Bool.false_ne_true, List.count_cons_of_ne (by decide), List.count_cons_self]
    omega
  | case3 c cs hseam hbreak ih =>
    rw [List.cons_append, splitLines_concat_cons hx hseam, if_pos hbreak, List.length_cons, ih,
      otherBreaks_cons, startsOtherBreak_cons hseam, hbreak, Bool.true_and]
    -- the break counts as a line feed or as another one
    by_cases hfeed : c = '\n'
    · rw [hfeed, List.count_cons_self, if_neg (by decide)]
      omega
    · rw [List.count_cons_of_ne hfeed, if_pos (bne_iff_ne.mpr hfeed)]
      omega
  | case4 c cs hseam hbreak ih =>
    have hplain : isLineBreak c = false := Bool.eq_false_iff.mpr hbreak
    rw [List.cons_append, splitLines_concat_cons hx hseam, if_neg hbreak,
      length_consLine (splitLines_ne_nil (by simp)), ih, otherBreaks_cons, startsOtherBreak_cons hseam,
      List.count_cons_of_ne (ne_of_isLineBreak hplain isLineBreak_lineFeed), hplain, Bool.false_and,
      if_neg Bool.false_ne_true, Nat.add_zero]

end Text

namespace Assembly

open Text.Utf8

theorem high_of_opening {n : Nat} (hlow : 0x80 ≤ n) (hhigh : n < 0x100) : 0x80 ≤ (UInt8.ofNat n).toNat := by
  rw [UInt8.toNat_ofNat_of_lt' hhigh]
  exact hlow

theorem high_of_trailing (n : Nat) : 0x80 ≤ (trailing n).toNat := by
  rw [toNat_trailing]
  omega

/-- Beyond the ASCII characters no byte is one of theirs. So a byte of a line feed is a line feed.
-/
theorem high_of_mem_encodeChar {c : Char} (h : 0x80 ≤ c.toNat) :
    ∀ b ∈ String.utf8EncodeChar c, 0x80 ≤ b.toNat := by
  have hvalid : c.toNat < 0xD800 ∨ (0xDFFF < c.toNat ∧ c.toNat < 0x110000) := c.valid
  by_cases htwo : c.toNat < 0x800
  · rw [encodeChar_two h htwo]
    simp only [List.forall_mem_cons]
    exact ⟨high_of_opening (by omega) (by omega), high_of_trailing _, by simp⟩
  by_cases hthree : c.toNat < 0x10000
  · rw [encodeChar_three (by omega) hthree]
    simp only [List.forall_mem_cons]
    exact ⟨high_of_opening (by omega) (by omega), high_of_trailing _, high_of_trailing _, by simp⟩
  · rw [encodeChar_four (by omega)]
    simp only [List.forall_mem_cons]
    exact ⟨high_of_opening (by omega) (by omega), high_of_trailing _, high_of_trailing _,
      high_of_trailing _, by simp⟩

/-- A line feed is one byte, and no other character has this byte in its encoding. -/
theorem count_encodeChar (c : Char) :
    (String.utf8EncodeChar c).count 0x0A = if c = '\n' then 1 else 0 := by
  by_cases hascii : c.toNat < 0x80
  · have hfeed : UInt8.ofNat c.toNat = 0x0A ↔ c = '\n' := by
      rw [← UInt8.toNat_inj, UInt8.toNat_ofNat_of_lt' (show c.toNat < 0x100 by omega), ← Char.toNat_inj]
      rfl
    rw [encodeChar_one hascii, List.count_singleton]
    simp only [beq_iff_eq, hfeed]
  · have hfeed : c ≠ '\n' := by
      intro heq
      rw [heq] at hascii
      exact absurd (by decide) hascii
    rw [if_neg hfeed, List.count_eq_zero]
    intro hmem
    exact absurd (high_of_mem_encodeChar (Nat.le_of_not_lt hascii) _ hmem) (by decide)

/-- The line feeds of a text are found among its bytes. Induction over the text. -/
theorem count_encode (cs : List Char) : (encode cs).count 0x0A = cs.count '\n' := by
  induction cs with
  | nil => rfl
  | cons c cs ih =>
    rw [encode_cons, List.count_append, ih, count_encodeChar, List.count_cons, Nat.add_comm]
    simp only [beq_iff_eq]

/-- The line that is reported for a byte counts the line feeds before it, and no other line
breaks. -/
theorem lineOfByte_encode (cs : List Char) (rest : List UInt8) :
    lineOfByte (encode cs ++ rest) (encode cs).length = 1 + cs.count '\n' := by
  rw [lineOfByte, List.take_left, count_encode]

end Assembly

open Assembly Text.Utf8

/-! ## The headline -/

/-- **Bytes that are no text are reported on a line that counts line feeds only.** Bytes that encode no text
have one text before the first of them that are no character. The error names the line behind its line feeds.
In the numbering of the assembler this place is on a line that is larger by the number of all other line
breaks of that text. -/
theorem undecodable_bytes_line {bytes : List UInt8} (h : ∀ s : String, s.toUTF8.data.toList ≠ bytes) :
    ∃ before, TextBefore bytes before ∧ (∀ other, TextBefore bytes other → other = before)
      ∧ ∃ reason, assembleBytes bytes = .error (.invalid ⟨1 + before.count '\n', .encoding reason⟩)
        ∧ ∀ c, isLineBreak c = false →
            (splitLines (before ++ [c])).length = 1 + before.count '\n' + otherBreaks before := by
  rcases encoded_or_textBefore bytes with ⟨cs, hbytes⟩ | ⟨before, hbefore⟩
  · refine absurd ?_ (h (String.ofList cs))
    rw [toUTF8_eq_encode, String.toList_ofList, hbytes]
  · obtain ⟨reason, hstop⟩ := hbefore.decode
    refine ⟨before, hbefore, fun other hother => hother.unique hbefore, reason, ?_, ?_⟩
    · obtain ⟨rest, hbytes, -⟩ := hbefore
      rw [assembleBytes, hstop]
      show Except.error (ReadError.invalid (SourceError.mk (lineOfByte bytes _) _)) = _
      rw [hbytes, lineOfByte_encode]
    · intro c hc
      exact length_splitLines_concat before hc

/-- A character that is cut off behind two line feeds, one of them after a carriage return, and a vertical
tab, which is not counted. -/
theorem undecodable_bytes_line_cut_off :
    TextBefore [0x0A, 0x0D, 0x0A, 0x0B, 0xE2, 0x82] ['\n', '\r', '\n', '\x0b']
      ∧ assembleBytes [0x0A, 0x0D, 0x0A, 0x0B, 0xE2, 0x82] = .error (.invalid ⟨3, .encoding .endOfData⟩)
      ∧ (splitLines ['\n', '\r', '\n', '\x0b', 'x']).length = 4 := by
  have hrest : decode [0xE2, 0x82] = .error ⟨0, .endOfData⟩ := by rfl
  have hbefore : TextBefore [0x0A, 0x0D, 0x0A, 0x0B, 0xE2, 0x82] ['\n', '\r', '\n', '\x0b'] :=
    ⟨[0xE2, 0x82], rfl, undecodable_of_decode hrest⟩
  have hinvalid : ∀ s : String, s.toUTF8.data.toList ≠ [0x0A, 0x0D, 0x0A, 0x0B, 0xE2, 0x82] := by
    intro s heq
    have hread := decode_encoded s
    rw [heq] at hread
    cases hread
  obtain ⟨before, -, hunique, reason, herror, hlines⟩ := undecodable_bytes_line hinvalid
  obtain rfl := hunique _ hbefore
  have hreason : reason = .endOfData := by
    cases herror
    rfl
  rw [hreason] at herror
  exact ⟨hbefore, herror, hlines 'x' rfl⟩

/-- Behind a lone carriage return the assembler is on the second line, and the decoder reports the
first. The same text with a character in place of the byte is refused on the second line. -/
theorem lone_return_not_counted :
    TextBefore [0x0D, 0xFF] ['\r']
      ∧ assembleBytes [0x0D, 0xFF] = .error (.invalid ⟨1, .encoding .startByte⟩)
      ∧ (splitLines (['\r'] ++ ['x'])).length = 2
      ∧ assemble "\rx" = .error (.invalid ⟨2, .line (.unknownOpcode ['x'])⟩) := by
  have hrest : decode [0xFF] = .error ⟨0, .startByte⟩ := by rfl
  exact ⟨⟨[0xFF], rfl, undecodable_of_decode hrest⟩, by rfl, by rfl, by rfl⟩

end StackMachine
