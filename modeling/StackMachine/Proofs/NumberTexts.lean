import StackMachine.Decimal.Text
import StackMachine.Value.Basic

/-!
# Number texts read back

A printed number is a sign, rows of ASCII digits with or without a point between them, and perhaps an
exponent. The reader of numerals takes such a text apart at the same places, so that it finds the
coefficient and the exponent that were printed, for decimals of every length and size.

* **`Text.spanDigits_append`**: a row of digits is read up to its end.
* **`Text.natOfDigits_toDigits`**: the printed digits of a number denote it.
* **`Numeral.read?_pointed`**, **`Numeral.read?_plain`**: a numeral with and without a point.
* **`Decimal.read?_finiteText`**: what is printed of a coefficient and an exponent reads back as both.
* **`Decimal.readDecimal?_text`**, **`Kind.spanInteger?_intText`**: so do the texts with their signs.
-/

namespace StackMachine

namespace Text

/-! ## Rows of digits -/

/-- A row of ASCII digits. -/
def IsRow (cs : List Char) : Prop :=
  ∀ c ∈ cs, c.isDigit = true

/-- The values of a row of ASCII digits. -/
def digitsOf (cs : List Char) : List Nat :=
  cs.map fun c => c.toNat - '0'.toNat

/-- No digit of any script comes first. -/
def NoDigit (rest : List Char) : Prop :=
  ∀ c ∈ rest.head?, digitValue? c = none

theorem toNat_of_isDigit {c : Char} (h : c.isDigit = true) : 48 ≤ c.toNat ∧ c.toNat ≤ 57 := by
  simpa [Char.isDigit, UInt32.le_iff_toNat_le] using h

/-- A digit is one of the ten of its script, which stand next to each other behind its zero. -/
theorem exists_zero_of_digitValue? {c : Char} {d : Nat} (h : digitValue? c = some d) :
    ∃ base ∈ digitZeros, base ≤ c.toNat ∧ c.toNat < base + 10 := by
  obtain ⟨base, hbase, hvalue⟩ := List.exists_of_findSome?_eq_some h
  obtain ⟨hrange, -⟩ := Option.ite_none_right_eq_some.mp hvalue
  exact ⟨base, hbase, hrange⟩

theorem digitValue?_of_isDigit {c : Char} (h : c.isDigit = true) :
    digitValue? c = some (c.toNat - '0'.toNat) := by
  have hc := toNat_of_isDigit h
  have hrange : 0x0030 ≤ c.toNat ∧ c.toNat < 0x0030 + 10 := by omega
  rw [digitValue?, digitZeros, List.findSome?_cons, if_pos hrange]
  rfl

theorem isRow_toDigits (n : Nat) : IsRow (Nat.toDigits 10 n) :=
  fun _ hc => Nat.isDigit_of_mem_toDigits (by decide) (by decide) hc

theorem IsRow.append {cs ds : List Char} (hcs : IsRow cs) (hds : IsRow ds) : IsRow (cs ++ ds) := by
  intro c hc
  rcases List.mem_append.mp hc with hc | hc
  · exact hcs c hc
  · exact hds c hc

theorem isRow_replicate_zero (n : Nat) : IsRow (List.replicate n '0') := by
  intro c hc
  rw [List.eq_of_mem_replicate hc]
  rfl

/-- **A row of digits is read up to its end**, if no digit follows it. Induction over the row. -/
theorem spanDigits_append {cs rest : List Char} (hcs : IsRow cs) (hrest : NoDigit rest) :
    spanDigits (cs ++ rest) = (digitsOf cs, rest) := by
  induction cs with
  | nil =>
    cases rest with
    | nil => rfl
    | cons c rest =>
      rw [List.nil_append, spanDigits, hrest c rfl]
      rfl
  | cons c cs ih =>
    have hc := digitValue?_of_isDigit (hcs c List.mem_cons_self)
    have htail := ih fun d hd => hcs d (List.mem_cons_of_mem c hd)
    rw [List.cons_append, spanDigits, hc]
    simp only [htail]
    rfl

theorem noDigit_nil : NoDigit [] := nofun

theorem spanDigits_row {cs : List Char} (hcs : IsRow cs) : spanDigits cs = (digitsOf cs, []) := by
  have h := spanDigits_append hcs noDigit_nil
  rwa [List.append_nil] at h

theorem natOfDigits_digitsOf (cs : List Char) : natOfDigits (digitsOf cs) = Nat.ofDigitChars 10 cs 0 := by
  rw [natOfDigits, digitsOf, List.foldl_map, Nat.ofDigitChars_eq_foldl]

/-- Zeros in front of a row make no difference to the number it denotes. -/
theorem natOfDigits_zeros_append (zeros : Nat) (cs : List Char) :
    natOfDigits (digitsOf (List.replicate zeros '0' ++ cs)) = natOfDigits (digitsOf cs) := by
  rw [natOfDigits_digitsOf, Nat.ofDigitChars_append, Nat.ofDigitChars_replicate_zero, Nat.mul_zero,
    natOfDigits_digitsOf]

/-- **The digits of a number denote it**, with any zeros in front of them. -/
theorem natOfDigits_toDigits (zeros n : Nat) :
    natOfDigits (digitsOf (List.replicate zeros '0' ++ Nat.toDigits 10 n)) = n := by
  rw [natOfDigits_zeros_append, natOfDigits_digitsOf, Nat.ofDigitChars_ten_toDigits]

/-! ## Texts that start with a digit -/

def StartsWithDigit (cs : List Char) : Prop :=
  ∃ c rest, cs = c :: rest ∧ c.isDigit = true

theorem IsRow.startsWithDigit {cs : List Char} (hcs : IsRow cs) (hne : cs ≠ []) (rest : List Char) :
    StartsWithDigit (cs ++ rest) := by
  obtain ⟨c, ds, rfl⟩ := List.exists_cons_of_ne_nil hne
  exact ⟨c, ds ++ rest, rfl, hcs c List.mem_cons_self⟩

end Text

open Text

namespace Numeral

theorem spanSign_digit {c : Char} (hc : isDigit c = true) (cs : List Char) :
    spanSign (c :: cs) = (false, c :: cs) := by
  unfold spanSign
  split
  · next heq =>
    obtain ⟨rfl, -⟩ := List.cons.inj heq
    exact absurd hc (by decide)
  · next heq =>
    obtain ⟨rfl, -⟩ := List.cons.inj heq
    exact absurd hc (by decide)
  · rfl

/-- A sign in front of a digit is read as the sign. Without one the number is not negative. -/
theorem spanSign_signText (negative : Bool) {body : List Char} (h : StartsWithDigit body) :
    spanSign (Decimal.signText negative ++ body) = (negative, body) := by
  cases negative with
  | true => rfl
  | false =>
    obtain ⟨c, rest, rfl, hc⟩ := h
    exact spanSign_digit (Option.isSome_of_eq_some (digitValue?_of_isDigit hc)) rest

/-! ## Numerals in parts -/

/-- A numeral is read in parts, and its exponent last. What is left behind the fraction has to be
an exponent or nothing. -/
theorem read?_of_parts {cs body rest tail : List Char} {negative : Bool} {whole fraction : List Nat}
    (hsign : spanSign cs = (negative, body)) (hwhole : spanDigits body = (whole, rest))
    (hfraction : spanFraction rest = (fraction, tail)) (hne : whole ≠ []) :
    read? cs = (readExponent? tail).map fun e =>
      ⟨negative, natOfDigits (whole ++ fraction), e - fraction.length⟩ := by
  simp only [read?, hsign, hwhole, hfraction]
  rw [if_neg (by simp [hne])]

theorem digitsOf_ne_nil {cs : List Char} (h : cs ≠ []) : digitsOf cs ≠ [] := by
  simpa [digitsOf] using h

/-- A numeral with a point: the digits on both sides are one row, and the exponent is lowered by
those behind the point. -/
theorem read?_pointed (negative : Bool) {whole fraction tail : List Char} (hwhole : IsRow whole)
    (hne : whole ≠ []) (hfraction : IsRow fraction) (htail : NoDigit tail) :
    read? (Decimal.signText negative ++ (whole ++ '.' :: (fraction ++ tail))) =
      (readExponent? tail).map fun e =>
        ⟨negative, natOfDigits (digitsOf (whole ++ fraction)), e - fraction.length⟩ := by
  have hpoint : NoDigit ('.' :: (fraction ++ tail)) := by
    rintro _ ⟨⟩
    decide
  rw [read?_of_parts (spanSign_signText negative (hwhole.startsWithDigit hne _))
    (spanDigits_append hwhole hpoint) (spanDigits_append hfraction htail) (digitsOf_ne_nil hne)]
  simp [digitsOf]

/-- A numeral without a point. What follows the digits must not start with one. -/
theorem read?_plain (negative : Bool) {whole tail : List Char} (hwhole : IsRow whole)
    (hne : whole ≠ []) (htail : NoDigit tail) (hpoint : tail.head? ≠ some '.') :
    read? (Decimal.signText negative ++ (whole ++ tail)) =
      (readExponent? tail).map fun e => ⟨negative, natOfDigits (digitsOf whole), e⟩ := by
  have hfraction : spanFraction tail = ([], tail) := by
    unfold spanFraction
    split
    · exact absurd rfl hpoint
    · rfl
  rw [read?_of_parts (spanSign_signText negative (hwhole.startsWithDigit hne _))
    (spanDigits_append hwhole htail) hfraction (digitsOf_ne_nil hne)]
  simp

theorem signed_natAbs (n : Int) : signed (decide (n < 0)) n.natAbs = n := by
  unfold signed
  by_cases hn : n < 0
  · rw [if_pos (by simpa using hn)]
    omega
  · rw [if_neg (by simpa using hn)]
    omega

/-- The digits of a number, one or more, and what they denote. -/
theorem exists_digits (n : Nat) :
    ∃ d ds, spanDigits (Nat.toDigits 10 n) = (d :: ds, []) ∧ (d :: ds).length = digitCount n
      ∧ natOfDigits (d :: ds) = n := by
  obtain ⟨d, ds, hcons⟩ : ∃ d ds, digitsOf (Nat.toDigits 10 n) = d :: ds :=
    List.exists_cons_of_ne_nil (digitsOf_ne_nil Nat.toDigits_ne_nil)
  refine ⟨d, ds, ?_, ?_, ?_⟩
  · rw [spanDigits_row (isRow_toDigits n), hcons]
  · rw [← hcons, digitsOf, List.length_map, digitCount]
  · rw [← hcons]
    exact natOfDigits_toDigits 0 n

/-- An exponent with zeros in front of its digits reads back. Floats are printed with two digits
in it at least. -/
theorem readExponent?_zeros {mark : Char} (hmark : mark = 'e' ∨ mark = 'E') (zeros : Nat) (e : Int) :
    readExponent? (mark :: (if e < 0 then '-' else '+')
      :: (List.replicate zeros '0' ++ Nat.toDigits 10 e.natAbs)) = some e := by
  have hsign (cs : List Char) :
      spanSign ((if e < 0 then '-' else '+') :: cs) = (decide (e < 0), cs) := by
    by_cases he : e < 0
    · simp [he, spanSign]
    · simp [he, spanSign]
  have hrow := (isRow_replicate_zero zeros).append (isRow_toDigits e.natAbs)
  have hvalue := natOfDigits_toDigits zeros e.natAbs
  have hne : List.replicate zeros '0' ++ Nat.toDigits 10 e.natAbs ≠ [] := by
    simp [Nat.toDigits_ne_nil]
  obtain ⟨d, ds, hcons⟩ := List.exists_cons_of_ne_nil (digitsOf_ne_nil hne)
  rw [hcons] at hvalue
  rw [readExponent?, if_pos hmark]
  simp only [hsign, spanDigits_row hrow, hcons, hvalue, signed_natAbs]

/-- **A printed exponent reads back**, with its sign, which is always printed. -/
theorem readExponent?_exponentText {mark : Char} (hmark : mark = 'e' ∨ mark = 'E') (e : Int) :
    readExponent? (Decimal.exponentText mark e) = some e :=
  readExponent?_zeros hmark 0 e

end Numeral

namespace Decimal

/-! ## Decimals -/

/-- **Digits with a point read back**: the number that they denote, and an exponent that is smaller by
the places behind the point. -/
theorem read?_withPoint_row (negative : Bool) {ds : List Char} (hrow : IsRow ds) (hne : ds ≠ [])
    (whole : Int) (hwhole : whole ≤ ds.length) {tail : List Char} (htail : NoDigit tail)
    (hpoint : tail.head? ≠ some '.') :
    ∃ places : Nat, whole + places = ds.length
      ∧ Numeral.read? (signText negative ++ (withPoint ds whole ++ tail)) =
        (Numeral.readExponent? tail).map fun e =>
          ⟨negative, natOfDigits (digitsOf ds), e - places⟩ := by
  unfold withPoint
  split
  · next hle =>
    -- zeros in front, and all digits behind the point
    have hfraction := (isRow_replicate_zero (-whole).toNat).append hrow
    have hread := Numeral.read?_pointed negative (isRow_replicate_zero 1) (by simp) hfraction htail
    rw [← List.append_assoc (List.replicate 1 '0'), List.replicate_append_replicate,
      natOfDigits_zeros_append] at hread
    refine ⟨(List.replicate (-whole).toNat '0' ++ ds).length, ?_, ?_⟩
    · rw [List.length_append, List.length_replicate]
      omega
    · rw [← hread]
      simp
  · next hpos =>
    split
    · next hdrop =>
      -- no digit behind the point, which is left out
      have hle : ds.length ≤ whole.toNat := List.drop_eq_nil_iff.mp hdrop
      refine ⟨0, by omega, ?_⟩
      rw [Numeral.read?_plain negative hrow hne htail hpoint]
      simp
    · next hdrop =>
      -- digits on both sides
      have htake : IsRow (ds.take whole.toNat) := fun c hc => hrow c (List.mem_of_mem_take hc)
      have hrest : IsRow (ds.drop whole.toNat) := fun c hc => hrow c (List.mem_of_mem_drop hc)
      have hsome : ds.take whole.toNat ≠ [] := by
        intro hnil
        rcases List.take_eq_nil_iff.mp hnil with hzero | hnone
        · omega
        · exact hne hnone
      have hread := Numeral.read?_pointed negative htake hsome hrest htail
      rw [List.take_append_drop] at hread
      refine ⟨(ds.drop whole.toNat).length, ?_, ?_⟩
      · rw [List.length_drop]
        omega
      · rw [← hread]
        simp

/-- A number that is printed with a point after `whole` of its digits. If `whole` is not positive,
zeros stand in front of the digits, and these are read as digits too. -/
theorem read?_withPoint (negative : Bool) (n : Nat) (whole : Int) (hwhole : whole ≤ digitCount n)
    {tail : List Char} (htail : NoDigit tail) (hpoint : tail.head? ≠ some '.') :
    ∃ places : Nat, whole + places = digitCount n
      ∧ Numeral.read? (signText negative ++ (withPoint (Nat.toDigits 10 n) whole ++ tail)) =
        (Numeral.readExponent? tail).map fun e => ⟨negative, n, e - places⟩ := by
  have hread := read?_withPoint_row negative (isRow_toDigits n) Nat.toDigits_ne_nil whole hwhole htail hpoint
  rwa [show natOfDigits (digitsOf (Nat.toDigits 10 n)) = n from natOfDigits_toDigits 0 n] at hread

/-- **A coefficient and an exponent read back** from what is printed of them, with a sign. The
point may stand among the digits or an exponent may be printed; the reader finds the same pair in
both. -/
theorem read?_finiteText (negative : Bool) (c : Nat) (e : Int) :
    Numeral.read? (signText negative ++ finiteText c e) = some ⟨negative, c, e⟩ := by
  have hcount : 0 < digitCount c := Nat.length_toDigits_pos
  unfold finiteText
  simp only
  split
  · next hplain =>
    -- the point alone says where the digits stand
    have hwhole : adjusted c e + 1 ≤ digitCount c := by
      unfold adjusted
      omega
    obtain ⟨places, hplaces, hread⟩ :=
      read?_withPoint negative c _ hwhole noDigit_nil (by simp)
    unfold adjusted at hplaces
    have hexponent : (0 : Int) - places = e := by omega
    rw [List.append_nil] at hread
    rw [hread]
    simp [Numeral.readExponent?, hexponent]
  · -- one digit before the point, and the exponent of that digit
    have hmark : NoDigit (exponentText 'E' (adjusted c e)) := by
      rintro _ ⟨⟩
      decide
    obtain ⟨places, hplaces, hread⟩ :=
      read?_withPoint negative c 1 (by omega) hmark (by simp [exponentText])
    have hexponent : adjusted c e - places = e := by
      unfold adjusted
      omega
    rw [hread, Numeral.readExponent?_exponentText (Or.inr rfl), Option.map_some, hexponent]

/-! ## The characters of a number text -/

/-- The characters that integers and decimals are printed with. -/
def IsNumberChar (c : Char) : Prop :=
  c.isDigit = true ∨ c ∈ ['+', '-', '.', 'E']

theorem isNumberChar_signText (negative : Bool) : ∀ c ∈ signText negative, IsNumberChar c := by
  cases negative with
  | false => nofun
  | true =>
    intro c hc
    rw [List.mem_singleton.mp hc]
    exact Or.inr (by decide)

/-- Digits with a point among them, or with zeros in front, are characters of numbers. -/
theorem isNumberChar_withPoint {ds : List Char} (hds : IsRow ds) (whole : Int) :
    ∀ c ∈ withPoint ds whole, IsNumberChar c := by
  have hpoint : IsNumberChar '.' := Or.inr (by decide)
  intro c hc
  unfold withPoint at hc
  split at hc
  · simp only [List.mem_append, List.mem_cons, List.not_mem_nil, or_false] at hc
    rcases hc with ((rfl | rfl) | hc) | hc
    · exact Or.inl rfl
    · exact hpoint
    · exact Or.inl (isRow_replicate_zero _ c hc)
    · exact Or.inl (hds c hc)
  · split at hc
    · exact Or.inl (hds c hc)
    · simp only [List.mem_append, List.mem_cons, List.not_mem_nil, or_false] at hc
      rcases hc with (hc | rfl) | hc
      · exact Or.inl (hds c (List.mem_of_mem_take hc))
      · exact hpoint
      · exact Or.inl (hds c (List.mem_of_mem_drop hc))

theorem isNumberChar_exponentText (e : Int) : ∀ c ∈ exponentText 'E' e, IsNumberChar c := by
  intro c hc
  rcases List.mem_cons.mp hc with rfl | hc
  · exact Or.inr (by decide)
  · rcases List.mem_cons.mp hc with rfl | hc
    · split
      · exact Or.inr (by decide)
      · exact Or.inr (by decide)
    · exact Or.inl (isRow_toDigits _ c hc)

/-- A decimal is printed with characters that need no quotation and are no blanks. -/
theorem isNumberChar_finite (negative : Bool) (n : Nat) (e : Int) :
    ∀ c ∈ text (.finite negative n e), IsNumberChar c := by
  intro c hc
  rcases List.mem_append.mp hc with hc | hc
  · exact isNumberChar_signText negative c hc
  · unfold finiteText at hc
    simp only at hc
    split at hc
    · exact isNumberChar_withPoint (isRow_toDigits n) _ c hc
    · rcases List.mem_append.mp hc with hc | hc
      · exact isNumberChar_withPoint (isRow_toDigits n) _ c hc
      · exact isNumberChar_exponentText _ c hc

/-- A point is never printed first: where no digit would stand before it, a zero does. -/
theorem startsWithDigit_withPoint {ds : List Char} (hds : IsRow ds) (hne : ds ≠ []) (whole : Int)
    (tail : List Char) : StartsWithDigit (withPoint ds whole ++ tail) := by
  unfold withPoint
  split
  · exact ⟨'0', _, rfl, rfl⟩
  · next hpos =>
    split
    · exact hds.startsWithDigit hne tail
    · -- at least one digit stands before the point
      obtain ⟨d, rest, rfl⟩ := List.exists_cons_of_ne_nil hne
      obtain ⟨k, hk⟩ : ∃ k, whole.toNat = k + 1 := ⟨whole.toNat - 1, by omega⟩
      rw [hk, List.take_succ_cons]
      exact ⟨d, _, rfl, hds d List.mem_cons_self⟩

theorem startsWithDigit_finiteText (c : Nat) (e : Int) : StartsWithDigit (finiteText c e) := by
  have hdigits (whole : Int) (tail : List Char) :=
    startsWithDigit_withPoint (isRow_toDigits c) Nat.toDigits_ne_nil whole tail
  unfold finiteText
  simp only
  split
  · have h := hdigits (adjusted c e + 1) []
    rwa [List.append_nil] at h
  · exact hdigits 1 _

end Decimal

namespace Numeral

/-! ## Words are no numbers -/

theorem toLower_of_isDigit {c : Char} (h : c.isDigit = true) : c.toLower = c := by
  have hc := toNat_of_isDigit h
  unfold Char.toLower
  rw [dif_neg]
  rintro ⟨hle, -⟩
  have hupper : 'A'.toNat ≤ c.toNat := UInt32.le_iff_toNat_le.mp hle
  have hvalue : 'A'.toNat = 65 := rfl
  omega

/-- A text that starts with a digit spells no word that does not, so it is no infinity and no
`nan`. -/
theorem spells_of_digit {c : Char} (hc : c.isDigit = true) (cs : List Char) {word : String} {w : Char}
    {ws : List Char} (hword : word.toList = w :: ws) (hw : w.isDigit = false) :
    spells word (c :: cs) = false := by
  have hne : c ≠ w := by
    rintro rfl
    rw [hc] at hw
    cases hw
  simp [spells, hword, toLower_of_isDigit hc, hne]

/-- A text that starts with a digit is read as a numeral, if it has no underscores to take out. -/
theorem readDecimal?_of_digit (negative : Bool) {body : List Char} (hbody : StartsWithDigit body)
    (hplain : ∀ c ∈ Decimal.signText negative ++ body, c ≠ '_') :
    readDecimal? (Decimal.signText negative ++ body)
      = (read? (Decimal.signText negative ++ body)).map .numeral := by
  have hfilter : (Decimal.signText negative ++ body).filter (· ≠ '_') = Decimal.signText negative ++ body :=
    List.filter_eq_self.mpr fun c hc => by simpa using hplain c hc
  have hsign := spanSign_signText negative hbody
  obtain ⟨c, cs, rfl, hc⟩ := hbody
  have hinfinity : spellsInfinity (c :: cs) = false := by
    rw [spellsInfinity, spells_of_digit hc cs rfl rfl, spells_of_digit hc cs rfl rfl]
    rfl
  have hnan : payload? "nan" (c :: cs) = none := by
    rw [payload?, show (c :: cs).take "nan".length = c :: cs.take 2 from rfl,
      spells_of_digit hc _ rfl rfl]
  have hsnan : payload? "snan" (c :: cs) = none := by
    rw [payload?, show (c :: cs).take "snan".length = c :: cs.take 3 from rfl,
      spells_of_digit hc _ rfl rfl]
  simp only [readDecimal?, hfilter, hsign, hinfinity, readNaN?, hnan, hsnan]
  rfl

end Numeral

/-! ## Whole texts -/

theorem Decimal.ne_underscore {c : Char} (h : IsNumberChar c) : c ≠ '_' := by
  rintro rfl
  rcases h with h | h
  · cases h
  · revert h
    decide

/-- **The text of a decimal reads back**, with its sign, its coefficient and its exponent. So it
is the same decimal, and not only an equal one. -/
theorem Decimal.readDecimal?_text (negative : Bool) (c : Nat) (e : Int) :
    Numeral.readDecimal? (text (.finite negative c e)) = some (.numeral ⟨negative, c, e⟩) := by
  have hplain : ∀ d ∈ signText negative ++ finiteText c e, d ≠ '_' :=
    fun d hd => ne_underscore (isNumberChar_finite negative c e d hd)
  rw [text, Numeral.readDecimal?_of_digit negative (startsWithDigit_finiteText c e) hplain,
    read?_finiteText]
  rfl

/-- **The text of an integer reads back**, as long as it is converted at all. The number of digits
is told, since there is a limit on it. -/
theorem Kind.spanInteger?_intText (n : Int) :
    ∃ ds, Numeral.spanInteger? (intText n) = some (decide (n < 0), ds)
      ∧ ds.length = digitCount n.natAbs ∧ signed (decide (n < 0)) (natOfDigits ds) = n := by
  obtain ⟨d, ds, hspan, hlength, hvalue⟩ := Numeral.exists_digits n.natAbs
  have hstart : StartsWithDigit (Nat.toDigits 10 n.natAbs) := by
    have h := (isRow_toDigits n.natAbs).startsWithDigit Nat.toDigits_ne_nil []
    rwa [List.append_nil] at h
  refine ⟨d :: ds, ?_, hlength, ?_⟩
  · simp only [Numeral.spanInteger?, intText, Numeral.spanSign_signText _ hstart, hspan]
  · rw [hvalue, Numeral.signed_natAbs]

theorem Kind.isNumberChar_intText (n : Int) : ∀ c ∈ intText n, Decimal.IsNumberChar c := by
  intro c hc
  rcases List.mem_append.mp hc with hc | hc
  · exact Decimal.isNumberChar_signText _ c hc
  · exact Or.inl (isRow_toDigits _ c hc)

end StackMachine
