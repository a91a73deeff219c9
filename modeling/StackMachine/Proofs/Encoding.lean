import StackMachine.Assembly

/-!
# The encoding of sources

A source reaches the assembler as text or as the bytes of a file. The bytes that encode a text are
read back as this text, so both ways lead to the same program or to the same error.

* **`Text.Utf8.decodeFrom_encodeChar`**: one character, by the number of its bytes.
* **`Text.Utf8.decodeFrom_encode`**: a text, whatever comes after it.
* **`Text.Utf8.decode_encoded`**: a whole text.
* **`assembleBytes_encoded`**: a file with the encoding of a source is assembled like the source.
-/

namespace StackMachine

namespace Text.Utf8

/-! ## One byte -/

section Bytes

variable (i : Nat) (bs : List UInt8)

theorem decodeFrom_ascii {b : UInt8} (h : b.toNat < 0x80) :
    decodeFrom i none (b :: bs) = (decodeFrom (i + 1) none bs).map (Char.ofNat b.toNat :: ·) := by
  rw [decodeFrom, if_pos h]
  cases decodeFrom (i + 1) none bs <;> rfl

/-- A byte that opens a character is followed by the bytes that it announces, whose range it may
narrow. -/
theorem decodeFrom_opening {b : UInt8} {p : Pending} (h : 0x80 ≤ b.toNat)
    (hopened : Pending.opened? i b.toNat = some p) :
    decodeFrom i none (b :: bs) = decodeFrom (i + 1) (some p) bs := by
  rw [decodeFrom, if_neg (Nat.not_lt.mpr h), hopened]

/-- The last six bits of a number, in a byte that does not open a character. -/
def trailing (n : Nat) : UInt8 :=
  UInt8.ofNat (n % 64 + 128)

theorem toNat_trailing (n : Nat) : (trailing n).toNat = n % 64 + 128 :=
  UInt8.toNat_ofNat_of_lt' (show n % 64 + 128 < 256 by omega)

theorem toNat_trailing_mod (n : Nat) : (trailing n).toNat % 64 = n % 64 := by
  rw [toNat_trailing]
  omega

theorem trailing_range (n : Nat) : 0x80 ≤ n % 64 + 128 ∧ n % 64 + 128 ≤ 0xBF := by
  omega

variable {start needed low high bits n : Nat}

/-- A trailing byte before the last one adds its six bits, and the next one may be any trailing
byte. -/
theorem decodeFrom_middle (h : low ≤ n % 64 + 128 ∧ n % 64 + 128 ≤ high) :
    decodeFrom i (some ⟨start, needed + 2, low, high, bits⟩) (trailing n :: bs)
      = decodeFrom (i + 1) (some ⟨start, needed + 1, 0x80, 0xBF, 64 * bits + n % 64⟩) bs := by
  rw [← toNat_trailing] at h
  rw [decodeFrom, if_pos h, if_neg (by simp), toNat_trailing_mod]
  rfl

/-- The last trailing byte ends the character. -/
theorem decodeFrom_last (h : low ≤ n % 64 + 128 ∧ n % 64 + 128 ≤ high) :
    decodeFrom i (some ⟨start, 1, low, high, bits⟩) (trailing n :: bs)
      = (decodeFrom (i + 1) none bs).map (Char.ofNat (64 * bits + n % 64) :: ·) := by
  rw [← toNat_trailing] at h
  rw [decodeFrom, if_pos h, if_pos (Nat.le_refl 1), toNat_trailing_mod]
  cases decodeFrom (i + 1) none bs <;> rfl

end Bytes

/-! ## One character

A first byte that could stand before a shorter form, a surrogate or a code that is too large narrows
the range of the second one. The codes of characters keep within that range. -/

theorem opened?_two (i : Nat) {q : Nat} (hlow : 2 ≤ q) (hhigh : q < 32) :
    Pending.opened? i (q + 192) = some ⟨i, 1, 0x80, 0xBF, q⟩ := by
  rw [Pending.opened?, if_neg (by omega), if_pos (by omega), Nat.add_sub_cancel]

/-- Three bytes leave out the numbers that two are enough for and the surrogates. Both are
excluded by the range of the second byte. -/
theorem opened?_three (i : Nat) {q r : Nat} (hq : q < 16) (hr : r < 64) (hshort : q = 0 → 32 ≤ r)
    (hsurrogate : q = 13 → r < 32) :
    ∃ low high, Pending.opened? i (q + 224) = some ⟨i, 2, low, high, q⟩
      ∧ low ≤ r + 128 ∧ r + 128 ≤ high := by
  rw [Pending.opened?, if_neg (by omega), if_neg (by omega)]
  by_cases h₀ : q = 0
  · have := hshort h₀
    exact ⟨0xA0, 0xBF, by simp [h₀], by omega, by omega⟩
  · by_cases h₁ : q = 13
    · have := hsurrogate h₁
      exact ⟨0x80, 0x9F, by simp [h₁], by omega, by omega⟩
    · refine ⟨0x80, 0xBF, ?_, by omega, by omega⟩
      rw [if_neg (by omega), if_neg (by omega), if_pos (by omega), Nat.add_sub_cancel]

/-- Four bytes leave out the numbers that three are enough for and those above the last character,
again by the range of the second byte. -/
theorem opened?_four (i : Nat) {q r : Nat} (hq : q ≤ 4) (hr : r < 64) (hshort : q = 0 → 16 ≤ r)
    (hlarge : q = 4 → r < 16) :
    ∃ low high, Pending.opened? i (q + 240) = some ⟨i, 3, low, high, q⟩
      ∧ low ≤ r + 128 ∧ r + 128 ≤ high := by
  rw [Pending.opened?, if_neg (by omega), if_neg (by omega), if_neg (by omega), if_neg (by omega),
    if_neg (by omega)]
  by_cases h₀ : q = 0
  · have := hshort h₀
    exact ⟨0x90, 0xBF, by simp [h₀], by omega, by omega⟩
  · by_cases h₁ : q = 4
    · have := hlarge h₁
      exact ⟨0x80, 0x8F, by simp [h₁], by omega, by omega⟩
    · refine ⟨0x80, 0xBF, ?_, by omega, by omega⟩
      rw [if_neg (by omega), if_neg (by omega), if_pos (by omega), Nat.add_sub_cancel]

/-! The bytes of a character, by its code. -/

section Encoded

variable {c : Char}

theorem encodeChar_one (h : c.toNat < 0x80) : String.utf8EncodeChar c = [UInt8.ofNat c.toNat] := by
  rw [String.utf8EncodeChar.eq_1, show c.val.toNat = c.toNat from rfl, if_pos (by omega)]

theorem encodeChar_two (hlow : 0x80 ≤ c.toNat) (hhigh : c.toNat < 0x800) :
    String.utf8EncodeChar c = [UInt8.ofNat (c.toNat / 64 + 192), trailing c.toNat] := by
  rw [String.utf8EncodeChar.eq_1, show c.val.toNat = c.toNat from rfl, if_neg (by omega),
    if_pos (by omega), Nat.mod_eq_of_lt (show c.toNat / 64 < 32 by omega)]
  rfl

theorem encodeChar_three (hlow : 0x800 ≤ c.toNat) (hhigh : c.toNat < 0x10000) :
    String.utf8EncodeChar c =
      [UInt8.ofNat (c.toNat / 4096 + 224), trailing (c.toNat / 64), trailing c.toNat] := by
  rw [String.utf8EncodeChar.eq_1, show c.val.toNat = c.toNat from rfl, if_neg (by omega),
    if_neg (by omega), if_pos (by omega), Nat.mod_eq_of_lt (show c.toNat / 4096 < 16 by omega)]
  rfl

theorem encodeChar_four (hlow : 0x10000 ≤ c.toNat) :
    String.utf8EncodeChar c =
      [UInt8.ofNat (c.toNat / 262144 + 240), trailing (c.toNat / 4096), trailing (c.toNat / 64),
        trailing c.toNat] := by
  have hvalid : c.toNat < 0xD800 ∨ (0xDFFF < c.toNat ∧ c.toNat < 0x110000) := c.valid
  rw [String.utf8EncodeChar.eq_1, show c.val.toNat = c.toNat from rfl, if_neg (by omega),
    if_neg (by omega), if_neg (by omega), Nat.mod_eq_of_lt (show c.toNat / 262144 < 8 by omega)]
  rfl

end Encoded

/-- **The bytes of a character are read as this character**, whatever comes after them. One case
for each number of bytes; that a character is no surrogate is what the third one needs. -/
theorem decodeFrom_encodeChar (c : Char) (i : Nat) (bs : List UInt8) :
    decodeFrom i none (String.utf8EncodeChar c ++ bs)
      = (decodeFrom (i + (String.utf8EncodeChar c).length) none bs).map (c :: ·) := by
  have hvalid : c.toNat < 0xD800 ∨ (0xDFFF < c.toNat ∧ c.toNat < 0x110000) := c.valid
  have hofNat := c.ofNat_toNat
  -- in each case the first byte opens the character, and the bits of all bytes make up its code
  by_cases hone : c.toNat < 0x80
  · rw [encodeChar_one hone]
    generalize c.toNat = v at *
    have hb : (UInt8.ofNat v).toNat = v := UInt8.toNat_ofNat_of_lt' (show v < 256 by omega)
    rw [List.singleton_append, decodeFrom_ascii i bs (by omega), hb, hofNat]
    rfl
  by_cases htwo : c.toNat < 0x800
  · rw [encodeChar_two (by omega) htwo]
    generalize c.toNat = v at *
    have hb : (UInt8.ofNat (v / 64 + 192)).toNat = v / 64 + 192 :=
      UInt8.toNat_ofNat_of_lt' (show v / 64 + 192 < 256 by omega)
    have hopened := opened?_two i (q := v / 64) (by omega) (by omega)
    have hcode : 64 * (v / 64) + v % 64 = v := by omega
    show decodeFrom i none (_ :: trailing v :: bs) = (decodeFrom (i + 1 + 1) none bs).map _
    rw [decodeFrom_opening i _ (by omega) (hb ▸ hopened), decodeFrom_last (i + 1) bs (trailing_range v),
      hcode, hofNat]
  by_cases hthree : c.toNat < 0x10000
  · rw [encodeChar_three (by omega) hthree]
    generalize c.toNat = v at *
    have hb : (UInt8.ofNat (v / 4096 + 224)).toNat = v / 4096 + 224 :=
      UInt8.toNat_ofNat_of_lt' (show v / 4096 + 224 < 256 by omega)
    obtain ⟨low, high, hopened, hrange⟩ := opened?_three i (q := v / 4096) (r := v / 64 % 64)
      (by omega) (by omega) (by omega) (by omega)
    have hcode : 64 * (64 * (v / 4096) + v / 64 % 64) + v % 64 = v := by omega
    show decodeFrom i none (_ :: trailing (v / 64) :: trailing v :: bs)
      = (decodeFrom (i + 1 + 1 + 1) none bs).map _
    rw [decodeFrom_opening i _ (by omega) (hb ▸ hopened), decodeFrom_middle (i + 1) _ hrange,
      decodeFrom_last (i + 1 + 1) bs (trailing_range v), hcode, hofNat]
  · rw [encodeChar_four (by omega)]
    generalize c.toNat = v at *
    have hb : (UInt8.ofNat (v / 262144 + 240)).toNat = v / 262144 + 240 :=
      UInt8.toNat_ofNat_of_lt' (show v / 262144 + 240 < 256 by omega)
    obtain ⟨low, high, hopened, hrange⟩ := opened?_four i (q := v / 262144) (r := v / 4096 % 64)
      (by omega) (by omega) (by omega) (by omega)
    have hcode : 64 * (64 * (64 * (v / 262144) + v / 4096 % 64) + v / 64 % 64) + v % 64 = v := by
      omega
    show decodeFrom i none (_ :: trailing (v / 4096) :: trailing (v / 64) :: trailing v :: bs)
      = (decodeFrom (i + 1 + 1 + 1 + 1) none bs).map _
    rw [decodeFrom_opening i _ (by omega) (hb ▸ hopened), decodeFrom_middle (i + 1) _ hrange,
      decodeFrom_middle (i + 1 + 1) _ (trailing_range _),
      decodeFrom_last (i + 1 + 1 + 1) bs (trailing_range v), hcode, hofNat]

/-! ## A text -/

/-- The bytes of a text. -/
def encode (cs : List Char) : List UInt8 :=
  cs.flatMap String.utf8EncodeChar

theorem encode_cons (c : Char) (cs : List Char) : encode (c :: cs) = String.utf8EncodeChar c ++ encode cs :=
  List.flatMap_cons

/-- The bytes of a text are read as this text, whatever comes after them. Induction over the text.
-/
theorem decodeFrom_encode (cs : List Char) (i : Nat) (bs : List UInt8) :
    decodeFrom i none (encode cs ++ bs) = (decodeFrom (i + (encode cs).length) none bs).map (cs ++ ·) := by
  induction cs generalizing i with
  | nil =>
    show decodeFrom i none bs = (decodeFrom i none bs).map ([] ++ ·)
    cases decodeFrom i none bs <;> rfl
  | cons c cs ih =>
    rw [encode_cons, List.append_assoc, decodeFrom_encodeChar, ih, List.length_append, Nat.add_assoc]
    cases decodeFrom _ none bs <;> rfl

/-- The bytes of a text are read as this text, with nothing behind them. -/
theorem decode_encode (cs : List Char) : decode (encode cs) = .ok cs := by
  have hread := decodeFrom_encode cs 0 []
  rw [List.append_nil] at hread
  rw [decode, hread, decodeFrom]
  show Except.ok (cs ++ []) = _
  rw [List.append_nil]

theorem toUTF8_eq_encode (s : String) : s.toUTF8.data.toList = encode s.toList := by
  conv => lhs; rw [← s.ofList_toList]
  exact List.toList_data_toByteArray

/-- **The bytes of a text are read as this text**, so a source may be given as a text or as its
bytes. -/
theorem decode_encoded (s : String) : decode s.toUTF8.data.toList = .ok s.toList := by
  rw [toUTF8_eq_encode, decode_encode]

end Text.Utf8

theorem assembleBytes_encoded (source : String) :
    assembleBytes source.toUTF8.data.toList = assemble source := by
  rw [assembleBytes, Text.Utf8.decode_encoded, assemble]

end StackMachine
