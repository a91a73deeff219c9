import Mathlib
import StackMachine.Proofs.Disassembly
import StackMachine.Proofs.ShortestDecimals

/-!
# Binary number texts read back

The text of a finite number is its shortest decimal: the digits without the zeros at their end, with a
point or an exponent that says where they stand. The reader of numerals finds the same decimal in either
layout, so a number of a format is read back from its text as far as the reader rounds to that format.
Doubles are read in their own format, so that every finite one survives.

* **`Binary.printed`**, **`Binary.rounded_printed`**: the decimal in a text, and that it is rounded back.
* **`Binary.read?_magnitudeText`**, **`Binary.readFloating?_text`**: the decimal is found by the reader.
* **`Value.parse_floating_literal`**: literals of the binary kinds.
* **`double_literals_read_back`**: doubles survive.
-/

namespace StackMachine

open Text

/-! ## Rows of digits -/

namespace Text

theorem natOfDigits_append_zeros (cs : List Char) (zeros : Nat) :
    natOfDigits (digitsOf (cs ++ List.replicate zeros '0')) = 10 ^ zeros * natOfDigits (digitsOf cs) := by
  rw [natOfDigits_digitsOf, Nat.ofDigitChars_append, Nat.ofDigitChars_replicate_zero,
    natOfDigits_digitsOf]

/-- A row of digits is what is left of it without its last zeros, and these zeros. -/
theorem exists_zeros_append (ds : List Char) :
    ∃ zeros, ds = (ds.reverse.dropWhile (· == '0')).reverse ++ List.replicate zeros '0' := by
  have hzeros : ∀ c ∈ ds.reverse.takeWhile (· == '0'), c = '0' := by
    intro c hc
    simpa using List.mem_takeWhile_imp hc
  refine ⟨(ds.reverse.takeWhile (· == '0')).length, ?_⟩
  calc ds = (ds.reverse.takeWhile (· == '0') ++ ds.reverse.dropWhile (· == '0')).reverse := by
        rw [List.takeWhile_append_dropWhile, List.reverse_reverse]
    _ = _ := by rw [List.reverse_append, List.eq_replicate_of_mem hzeros, List.reverse_replicate,
          List.length_replicate]

end Text

namespace Binary

/-- Only zeros are dropped, and not all digits: of a row of zeros one is left. -/
theorem dropTrailingZeros_spec {ds : List Char} (hne : ds ≠ []) :
    dropTrailingZeros ds ≠ [] ∧ ∃ zeros, ds = dropTrailingZeros ds ++ List.replicate zeros '0' := by
  obtain ⟨d, rest, rfl⟩ := List.exists_cons_of_ne_nil hne
  obtain ⟨zeros, hzeros⟩ := exists_zeros_append rest
  refine ⟨by simp [dropTrailingZeros], zeros, ?_⟩
  rw [dropTrailingZeros, List.cons_append, ← hzeros]

theorem isRow_dropTrailingZeros (n : Nat) : IsRow (dropTrailingZeros (Nat.toDigits 10 n)) := by
  obtain ⟨-, zeros, hzeros⟩ := dropTrailingZeros_spec (Nat.toDigits_ne_nil (b := 10) (n := n))
  intro c hc
  apply isRow_toDigits n
  rw [hzeros]
  exact List.mem_append_left _ hc

/-! ## Layouts -/

/-- Zeros at the end of a row of digits count for the exponent, so printing may leave them out and
positional layout may put them in. -/
theorem zeros_mul_zpow (zeros m : Nat) (e : Int) :
    ((10 ^ zeros * m : Nat) : ℚ) * 10 ^ e = m * 10 ^ (zeros + e) := by
  rw [zpow_add₀ (by norm_num), zpow_natCast]
  push_cast
  ring

theorem noDigit_shortExponent (e : Int) : NoDigit (shortExponent e) := by
  rintro _ ⟨⟩
  decide

theorem readExponent?_shortExponent (e : Int) : Numeral.readExponent? (shortExponent e) = some e := by
  have hread := Numeral.readExponent?_zeros (Or.inl rfl) (2 - (Nat.toDigits 10 e.natAbs).length) e
  rw [← hread, shortExponent]
  rfl

section

variable {fmt : Format} {ds : List Char}

/-- Digits in positional layout. The point stands where it is said to, inside the row, in front of
it after some zeros, or behind it after others. -/
theorem read?_positionalText (negative : Bool) (hrow : IsRow ds) (hne : ds ≠ []) (whole : Int) :
    ∃ c e, Numeral.read? (Decimal.signText negative ++ positionalText ds whole) = some ⟨negative, c, e⟩
      ∧ (c : ℚ) * 10 ^ e = natOfDigits (digitsOf ds) * 10 ^ (whole - ds.length) := by
  have hpadded := hrow.append (isRow_replicate_zero (whole.toNat + 1 - ds.length))
  have hlength : (ds ++ List.replicate (whole.toNat + 1 - ds.length) '0').length
      = ds.length + (whole.toNat + 1 - ds.length) := by
    rw [List.length_append, List.length_replicate]
  obtain ⟨places, hplaces, hread⟩ := Decimal.read?_withPoint_row negative hpadded (by simp [hne]) whole
    (by omega) noDigit_nil (by simp)
  rw [List.append_nil] at hread
  refine ⟨_, _, hread, ?_⟩
  rw [natOfDigits_append_zeros, zeros_mul_zpow]
  congr 2
  omega

/-- Digits in exponential layout: one of them stands before the point, and the exponent makes up
for it. -/
theorem read?_exponential (negative : Bool) (hrow : IsRow ds) (hne : ds ≠ []) (lead : Int) :
    ∃ c e, Numeral.read? (Decimal.signText negative ++ (Decimal.withPoint ds 1 ++ shortExponent lead))
        = some ⟨negative, c, e⟩
      ∧ (c : ℚ) * 10 ^ e = natOfDigits (digitsOf ds) * 10 ^ (lead + 1 - ds.length) := by
  have hpos : 0 < ds.length := List.length_pos_of_ne_nil hne
  obtain ⟨places, hplaces, hread⟩ := Decimal.read?_withPoint_row negative hrow hne 1 (by omega)
    (noDigit_shortExponent lead) (by simp [shortExponent])
  rw [readExponent?_shortExponent] at hread
  refine ⟨_, _, hread, ?_⟩
  congr 2
  omega

/-- **The reader finds the shortest decimal**, whichever layout it was printed in. Which
coefficient and exponent it finds depends on the layout, and the rational does not. -/
theorem read?_magnitudeText (layout : Layout) (fmt : Format) (negative : Bool) (u : Nat) :
    ∃ c e, Numeral.read? (Decimal.signText negative ++ magnitudeText layout fmt u)
        = some ⟨negative, c, e⟩
      ∧ (c : ℚ) * 10 ^ e * 2 ^ fmt.scale = (shortest fmt u).units fmt := by
  rw [magnitudeText, Digits.units]
  generalize shortest fmt u = found
  obtain ⟨hne, zeros, hzeros⟩ := dropTrailingZeros_spec (Nat.toDigits_ne_nil (b := 10) (n := found.coefficient))
  have hcount := congrArg List.length hzeros
  have hvalue := natOfDigits_toDigits 0 found.coefficient
  rw [List.replicate_zero, List.nil_append, hzeros, natOfDigits_append_zeros] at hvalue
  rw [List.length_append, List.length_replicate] at hcount
  have hrow := isRow_dropTrailingZeros found.coefficient
  -- either layout puts the last digit that is left at this place
  have hplace : Decimal.adjusted found.coefficient found.exponent + 1
      - (dropTrailingZeros (Nat.toDigits 10 found.coefficient)).length = zeros + found.exponent := by
    have hpos := digitCount_pos found.coefficient
    unfold Decimal.adjusted
    unfold digitCount at hpos ⊢
    omega
  have hfound : (natOfDigits (digitsOf (dropTrailingZeros (Nat.toDigits 10 found.coefficient))) : ℚ)
      * 10 ^ (Decimal.adjusted found.coefficient found.exponent + 1
        - (dropTrailingZeros (Nat.toDigits 10 found.coefficient)).length : Int)
      = found.coefficient * 10 ^ found.exponent := by
    rw [hplace, ← zeros_mul_zpow, hvalue]
  split
  · obtain ⟨c, e, hread, hdecimal⟩ := read?_positionalText negative hrow hne
      (Decimal.adjusted found.coefficient found.exponent + 1)
    exact ⟨c, e, hread, by rw [hdecimal, hfound]⟩
  · obtain ⟨c, e, hread, hdecimal⟩ := read?_exponential negative hrow hne
      (Decimal.adjusted found.coefficient found.exponent)
    exact ⟨c, e, hread, by rw [hdecimal, hfound]⟩

end

/-! ## The characters of a text -/

/-- The characters that binary numbers are printed with. -/
def IsFloatChar (c : Char) : Prop :=
  Decimal.IsNumberChar c ∨ c = 'e'

theorem isFloatChar_shortExponent (e : Int) : ∀ c ∈ shortExponent e, IsFloatChar c := by
  intro c hc
  simp only [shortExponent, List.mem_append, List.mem_cons, List.not_mem_nil, or_false] at hc
  rcases hc with ((rfl | hsign) | hzero) | hdigit
  · exact Or.inr rfl
  · left
    split at hsign
    · exact Or.inr (by rw [hsign]; decide)
    · exact Or.inr (by rw [hsign]; decide)
  · exact Or.inl (Or.inl (isRow_replicate_zero _ c hzero))
  · exact Or.inl (Or.inl (isRow_toDigits _ c hdigit))

/-- Both layouts print digits, a point and an exponent, and no other characters. -/
theorem isFloatChar_magnitudeText (layout : Layout) (fmt : Format) (u : Nat) :
    ∀ c ∈ magnitudeText layout fmt u, IsFloatChar c := by
  have hrow := isRow_dropTrailingZeros (shortest fmt u).coefficient
  intro c hc
  rw [magnitudeText] at hc
  split at hc
  · exact Or.inl (Decimal.isNumberChar_withPoint (hrow.append (isRow_replicate_zero _)) _ c hc)
  · rcases List.mem_append.mp hc with hdigits | hexponent
    · exact Or.inl (Decimal.isNumberChar_withPoint hrow 1 c hdigits)
    · exact isFloatChar_shortExponent _ c hexponent

/-- Both layouts print a digit first, for a point never starts a text. -/
theorem startsWithDigit_magnitudeText (layout : Layout) (fmt : Format) (u : Nat) :
    StartsWithDigit (magnitudeText layout fmt u) := by
  have hrow := isRow_dropTrailingZeros (shortest fmt u).coefficient
  have hne := (dropTrailingZeros_spec (Nat.toDigits_ne_nil (b := 10) (n := (shortest fmt u).coefficient))).1
  rw [magnitudeText]
  split
  · rw [← List.append_nil (positionalText _ _)]
    exact Decimal.startsWithDigit_withPoint (hrow.append (isRow_replicate_zero _)) (by simp [hne]) _ []
  · exact Decimal.startsWithDigit_withPoint hrow hne 1 _

theorem isInk_of_isFloatChar {c : Char} (h : IsFloatChar c) : IsInk c := by
  rcases h with hnumber | rfl
  · exact isInk_of_isNumberChar hnumber
  · decide

theorem ne_underscore_of_isFloatChar {c : Char} (h : IsFloatChar c) : c ≠ '_' := by
  rcases h with hnumber | rfl
  · exact Decimal.ne_underscore hnumber
  · decide

end Binary

/-! ## Whole texts -/

namespace Numeral

/-- A text without underscores is left alone by grouping. Induction over the text. -/
theorem joinGroups?_eq_self {cs : List Char} (h : ∀ c ∈ cs, c ≠ '_') (afterDigit : Bool) :
    joinGroups? afterDigit cs = some cs := by
  induction cs generalizing afterDigit with
  | nil => rfl
  | cons c cs ih =>
    have hc := h c List.mem_cons_self
    rw [joinGroups?, ih fun d hd => h d (List.mem_cons_of_mem c hd)]
    · rfl
    · exact fun heq _ => hc heq
    · exact fun _ _ heq _ => hc heq

/-- A text that starts with a digit is no name of an infinity or of `nan`, so it is read as a
numeral. -/
theorem readFloating?_of_digit (negative : Bool) {body : List Char} (hbody : StartsWithDigit body)
    (hplain : ∀ c ∈ Decimal.signText negative ++ body, c ≠ '_') :
    readFloating? (Decimal.signText negative ++ body)
      = (read? (Decimal.signText negative ++ body)).map .numeral := by
  have hgroups := joinGroups?_eq_self hplain false
  have hsign := spanSign_signText negative hbody
  obtain ⟨c, cs, rfl, hc⟩ := hbody
  have hinfinity : spellsInfinity (c :: cs) = false := by
    rw [spellsInfinity, spells_of_digit hc cs rfl rfl, spells_of_digit hc cs rfl rfl]
    rfl
  have hnan : spells "nan" (c :: cs) = false := spells_of_digit hc cs rfl rfl
  simp only [readFloating?, hsign, hinfinity, hnan, hgroups]
  rfl

end Numeral

namespace Binary

variable {fmt : Format} {u : Nat}

/-- The decimal in the text of a number, in units. -/
def printed (fmt : Format) (u : Nat) : ℚ :=
  if u = 0 then 0 else (shortest fmt u).units fmt

theorem printed_nonneg (fmt : Format) (u : Nat) : 0 ≤ printed fmt u := by
  rw [printed]
  split
  · exact le_rfl
  · unfold Digits.units
    positivity

/-- **The printed decimal is rounded to the number** that it was printed for: this is what
shortest decimals are chosen by. -/
theorem rounded_printed (hp : 0 < fmt.precision) (hu : fmt.Spaced u) : fmt.rounded (printed fmt u) = u := by
  rw [printed]
  split
  · next hzero =>
    have h := Format.rounded_self hp (Format.spacing_dvd fmt.representable_zero)
    rw [hzero]
    exact_mod_cast h
  · exact rounded_shortest hp hu

/-- The part of a text behind its sign. -/
def unsignedText (layout : Layout) (fmt : Format) (u : Nat) : List Char :=
  if u = 0 then "0.0".toList else magnitudeText layout fmt u

theorem isFloatChar_text (layout : Layout) (negative : Bool) (u : Nat) :
    ∀ c ∈ Decimal.signText negative ++ unsignedText layout fmt u, IsFloatChar c := by
  intro c hc
  rcases List.mem_append.mp hc with hsign | hdigits
  · exact Or.inl (Decimal.isNumberChar_signText negative c hsign)
  · rw [unsignedText] at hdigits
    split at hdigits
    · exact Or.inl (Decimal.isNumberChar_withPoint (isRow_replicate_zero 2) 1 c hdigits)
    · exact isFloatChar_magnitudeText layout fmt u c hdigits

theorem startsWithDigit_unsignedText (layout : Layout) (fmt : Format) (u : Nat) :
    StartsWithDigit (unsignedText layout fmt u) := by
  rw [unsignedText]
  split
  · exact ⟨'0', ['.', '0'], rfl, rfl⟩
  · exact startsWithDigit_magnitudeText layout fmt u

/-- **The reader finds the decimal in a text**, with its sign. Zero, which has no shortest
decimal, is included. -/
theorem readFloating?_text (layout : Layout) (negative : Bool) (hu : fmt.Representable u) :
    ∃ c e, Numeral.readFloating? (text layout (.finite negative u hu)) = some (.numeral ⟨negative, c, e⟩)
      ∧ (c : ℚ) * 10 ^ e * 2 ^ fmt.scale = printed fmt u := by
  have hplain : ∀ c ∈ Decimal.signText negative ++ unsignedText layout fmt u, c ≠ '_' :=
    fun c hc => ne_underscore_of_isFloatChar (isFloatChar_text layout negative u c hc)
  have hread := Numeral.readFloating?_of_digit negative (startsWithDigit_unsignedText layout fmt u) hplain
  show ∃ c e, Numeral.readFloating? (Decimal.signText negative ++ unsignedText layout fmt u) = _ ∧ _
  rw [hread, unsignedText, printed]
  split
  · refine ⟨0, -1, ?_, by simp⟩
    cases negative with
    | false => decide
    | true => decide
  · obtain ⟨c, e, hnumeral, hvalue⟩ := read?_magnitudeText layout fmt negative u
    exact ⟨c, e, by rw [hnumeral]; rfl, hvalue⟩

theorem isInk_text (layout : Layout) (negative : Bool) (hu : fmt.Representable u) :
    ∀ c ∈ text layout (.finite negative u hu), IsInk c :=
  fun c hc => isInk_of_isFloatChar (isFloatChar_text layout negative u c hc)

end Binary

/-! ## Literals -/

namespace Value

theorem splitLiteral?_literal {v : Value} (h : ∀ c ∈ v.kind.numberText v.number, IsInk c) :
    splitLiteral? v.literal.toList = some ⟨v.kind.name.toList, v.kind.numberText v.number⟩ := by
  rw [toList_literal, splitLiteral?_append v.kind h]

/-- The literal of a finite binary number is read as its text is. What remains is to read that
text for the kind. -/
theorem parse_floating_literal {k : FloatKind} (negative : Bool) {u : Nat} (hu : k.format.Representable u) :
    parse (literal ⟨.floating k, Binary.finite negative u hu⟩).toList
      = (readFloating k (Binary.text k.layout (.finite negative u hu))).mapError .invalid := by
  have hink : ∀ c ∈ Kind.numberText (.floating k) (Binary.finite negative u hu), IsInk c :=
    Binary.isInk_text k.layout negative hu
  rw [parse, splitLiteral?_literal hink]
  simp only [Kind.ofName?_name]
  rfl

/-- What is read from a text that is rounded to a double. Unlike for a float there is no second
rounding and no test of the range. -/
theorem readFloating_double {body : List Char} {negative : Bool} {c u : Nat} {e : Int}
    (hbody : Numeral.readFloating? body = some (.numeral ⟨negative, c, e⟩))
    (hu : Format.double.Representable u)
    (hround : Format.double.rounded (c * 10 ^ e * 2 ^ Format.double.scale) = u) :
    readFloating .double body = .ok ⟨.floating .double, .finite negative u hu⟩ := by
  have hread : Binary.ofNumberText .double (.numeral ⟨negative, c, e⟩) = .finite negative u hu :=
    Binary.ofDecimal_of_rounded (by decide) (by decide) hu hround negative
  simp only [readFloating, hbody, hread]

end Value

/-- **Every finite double survives printing and parsing**, the sign of zero included. The text is
a decimal that is rounded to the double, and reading rounds it. -/
theorem double_literals_read_back {v : Value} (hkind : v.kind = .floating .double)
    (hfinite : v.isFinite = true) : Value.parse v.literal.toList = .ok v := by
  obtain ⟨kind, x⟩ := v
  obtain rfl : kind = .floating .double := hkind
  cases x with
  | nan => cases hfinite
  | infinity negative => cases hfinite
  | finite negative u hu =>
    obtain ⟨c, e, hread, hvalue⟩ := Binary.readFloating?_text FloatKind.double.layout negative hu
    have hround : FloatKind.double.format.rounded (c * 10 ^ e * 2 ^ FloatKind.double.format.scale) = u := by
      rw [hvalue]
      exact Binary.rounded_printed (by decide) (Format.spacing_dvd hu)
    rw [Value.parse_floating_literal, Value.readFloating_double hread hu hround]
    rfl

/-- The negative zero, the negative number nearest to it, and the largest number. -/
theorem double_literals_read_back_extremes :
    Value.parse (Value.literal ⟨.floating .double, .finite true 0 (by decide +kernel)⟩).toList
        = .ok ⟨.floating .double, .finite true 0 (by decide +kernel)⟩
      ∧ Value.parse (Value.literal ⟨.floating .double, .finite true 1 (by decide +kernel)⟩).toList
        = .ok ⟨.floating .double, .finite true 1 (by decide +kernel)⟩
      ∧ Value.parse (Value.literal ⟨.floating .double,
          .finite false Format.double.largest (Format.representable_largest (by decide))⟩).toList
        = .ok ⟨.floating .double,
          .finite false Format.double.largest (Format.representable_largest (by decide))⟩ :=
  ⟨double_literals_read_back rfl rfl, double_literals_read_back rfl rfl, double_literals_read_back rfl rfl⟩

end StackMachine
