import Mathlib
import StackMachine.Proofs.DecimalReading
import StackMachine.Proofs.LiteralGrammar
import StackMachine.Proofs.RoundingTwice

/-!
# Float literals are rounded twice

A float literal is read as a double and then rounded to a float. Both steps take the nearest number, so
the value is the float nearest to the numeral in all cases but one: the double may lie halfway between two
floats, while the numeral lies on the side of the float that is not taken.

* **`Numeral.DecimalText`**, **`Numeral.decimalText_of_read?`**: decimal numerals and what they denote.
* **`Value.readFloating_float`**: the two steps.
* **`float_literals_rounded_twice`**: when the value is the nearest float.
-/

namespace StackMachine

open Text

/-! ## Decimal numerals -/

namespace Numeral

/-- A point and the digits behind it, or nothing. -/
inductive Fraction : List Char → List Nat → Prop where
  | none : Fraction [] []
  | point {digits : List Char} {values : List Nat} (denotes : Denotes digits values) :
      Fraction ('.' :: digits) values

/-- The letter E in either case, a sign and digits, or nothing for the exponent zero. -/
inductive Exponent : List Char → Int → Prop where
  | none : Exponent [] 0
  | mk {letter : Char} {sign digits : List Char} {negative : Bool} {values : List Nat}
      (either : letter = 'e' ∨ letter = 'E') (leading : Sign sign negative)
      (denotes : Denotes digits values) (nonempty : digits ≠ []) :
      Exponent (letter :: (sign ++ digits)) (signed negative (Nat.ofDigits 10 values.reverse))

/-- The decimal numerals with the numbers they denote: a sign, digits with or without a point, of which
there is at least one, and an exponent. -/
inductive DecimalText : List Char → ℚ → Prop where
  | mk {sign digits fraction exponent : List Char} {negative : Bool} {whole parts : List Nat} {e : Int}
      (leading : Sign sign negative) (denotes : Denotes digits whole) (pointed : Fraction fraction parts)
      (nonempty : whole ++ parts ≠ []) (power : Exponent exponent e) :
      DecimalText (sign ++ (digits ++ (fraction ++ exponent)))
        (signed negative 1
          * (Nat.ofDigits 10 whole.reverse + Nat.ofDigits 10 parts.reverse / 10 ^ parts.length) * 10 ^ e)

/-- The number that a numeral denotes. -/
def rational (n : Numeral) : ℚ :=
  signed n.negative n.coefficient * 10 ^ n.exponent

/-- The digits at the front of a text are read off as the digits that they denote. Induction over
the text. -/
theorem exists_denotes_spanDigits (cs : List Char) :
    ∃ digits, Denotes digits (spanDigits cs).1 ∧ cs = digits ++ (spanDigits cs).2 := by
  induction cs with
  | nil => exact ⟨[], .nil, rfl⟩
  | cons c cs ih =>
    rw [spanDigits]
    split
    · exact ⟨[], .nil, rfl⟩
    · next d hd =>
      obtain ⟨digits, hdigits, hcs⟩ := ih
      exact ⟨c :: digits, .cons hd hdigits, congrArg (c :: ·) hcs⟩

/-- What is read as a fraction is a point and digits, or nothing. -/
theorem exists_fraction_spanFraction (cs : List Char) :
    ∃ fraction, Fraction fraction (spanFraction cs).1 ∧ cs = fraction ++ (spanFraction cs).2 := by
  unfold spanFraction
  split
  · next cs =>
    obtain ⟨digits, hdigits, hcs⟩ := exists_denotes_spanDigits cs
    exact ⟨'.' :: digits, .point hdigits, congrArg ('.' :: ·) hcs⟩
  · exact ⟨[], .none, rfl⟩

/-- What is read as an exponent is written as one. -/
theorem exponent_of_readExponent? {cs : List Char} {e : Int} (h : readExponent? cs = some e) :
    Exponent cs e := by
  unfold readExponent? at h
  split at h
  · obtain rfl := Option.some.inj h
    exact .none
  · next c cs =>
    split at h
    · next hletter =>
      obtain ⟨sign, hsign, hcs⟩ := exists_sign_spanSign cs
      dsimp only at h
      split at h
      · next d ds hspan =>
        have hdigits := spanDigits_eq_iff.mp hspan
        -- there is a digit behind the sign, since one was read
        have hne : (spanSign cs).2 ≠ [] := by
          intro hempty
          rw [hempty] at hdigits
          cases hdigits
        rw [natOfDigits_eq_ofDigits] at h
        rw [hcs, ← Option.some.inj h]
        exact .mk hletter hsign hdigits hne
      · cases h
    · cases h

/-- The digits on the two sides of a point, as one row. This is how they are read, with the point
remembered in the exponent. -/
theorem natOfDigits_append (whole parts : List Nat) :
    natOfDigits (whole ++ parts) = natOfDigits whole * 10 ^ parts.length + natOfDigits parts := by
  rw [natOfDigits_eq_ofDigits, natOfDigits_eq_ofDigits, natOfDigits_eq_ofDigits, List.reverse_append,
    Nat.ofDigits_append, List.length_reverse]
  ring

/-- The point counts for the exponent: one row of digits, and as many places less as digits stand
behind the point. The left side is what is read, the right side what the text denotes. -/
theorem rational_pointed (negative : Bool) (whole parts : List Nat) (e : Int) :
    rational ⟨negative, natOfDigits (whole ++ parts), e - parts.length⟩
      = signed negative 1
        * (Nat.ofDigits 10 whole.reverse + Nat.ofDigits 10 parts.reverse / 10 ^ parts.length) * 10 ^ e := by
  have hten : (10 : ℚ) ≠ 0 := by norm_num
  have hcast (ds : List Nat) : (natOfDigits ds : ℚ) = Nat.ofDigits 10 ds.reverse := by
    rw [natOfDigits_eq_ofDigits, Nat.coe_ofDigits, Nat.cast_ofNat]
  rw [rational, natOfDigits_append, ← Nat.one_mul (_ + _), signed_mul, zpow_sub₀ hten, zpow_natCast]
  push_cast
  rw [hcast, hcast]
  field_simp

/-- **What is read denotes the number that it is read as.** The text is put together again from
the parts that the reader has taken it apart into. -/
theorem decimalText_of_read? {cs : List Char} {n : Numeral} (h : read? cs = some n) :
    DecimalText cs n.rational := by
  obtain ⟨sign, hsign, hcs⟩ := exists_sign_spanSign cs
  obtain ⟨digits, hdigits, hbody⟩ := exists_denotes_spanDigits (spanSign cs).2
  obtain ⟨fraction, hfraction, hrest⟩ := exists_fraction_spanFraction (spanDigits (spanSign cs).2).2
  simp only [read?] at h
  split at h
  · cases h
  · next hempty =>
    obtain ⟨e, he, rfl⟩ := Option.map_eq_some_iff.mp h
    have hne : (spanDigits (spanSign cs).2).1 ++ (spanFraction (spanDigits (spanSign cs).2).2).1 ≠ [] := by
      simpa using hempty
    have htext := DecimalText.mk hsign hdigits hfraction hne (exponent_of_readExponent? he)
    rw [← hrest, ← hbody, ← hcs] at htext
    rw [rational_pointed]
    exact htext

/-- Grouping takes the underscores out and nothing else. Induction on the recursion of
`joinGroups?`. -/
theorem joinGroups?_eq_filter {afterDigit : Bool} {cs ds : List Char}
    (h : joinGroups? afterDigit cs = some ds) : ds = cs.filter (· ≠ '_') := by
  fun_induction joinGroups? afterDigit cs generalizing ds with
  | case1 => exact (Option.some.inj h).symm
  | case2 => cases h
  | case3 afterDigit c cs hdigit ih =>
    -- an underscore between digits is dropped, and the digit behind it is kept
    obtain ⟨rest, hrest, rfl⟩ := Option.map_eq_some_iff.mp h
    have hc : c ≠ '_' := by
      rintro rfl
      exact absurd (Bool.and_eq_true_iff.mp hdigit).2 (by decide)
    rw [List.filter_cons_of_neg (by decide), List.filter_cons_of_pos (by simpa using hc), ih hrest]
  | case4 => cases h
  | case5 afterDigit c cs hlone hgroup ih =>
    obtain ⟨rest, hrest, rfl⟩ := Option.map_eq_some_iff.mp h
    have hc : c ≠ '_' := by
      -- any other underscore would have been refused
      intro hunderscore
      cases cs with
      | nil => exact hlone hunderscore rfl
      | cons d cs => exact hgroup d cs hunderscore rfl
    rw [List.filter_cons_of_pos (by simpa using hc), ih hrest]

/-- Underscores count for nothing: the number is the one that the text without them denotes. -/
theorem decimalText_of_readFloating? {cs : List Char} {n : Numeral}
    (h : readFloating? cs = some (.numeral n)) : DecimalText (cs.filter (· ≠ '_')) n.rational := by
  simp only [readFloating?] at h
  split at h
  · cases h
  · split at h
    · cases h
    · obtain ⟨n', hread, hn⟩ := Option.map_eq_some_iff.mp h
      obtain ⟨ds, hgroups, hread⟩ := Option.bind_eq_some_iff.mp hread
      obtain rfl := NumberText.numeral.inj hn
      rw [← joinGroups?_eq_filter hgroups]
      exact decimalText_of_read? hread

end Numeral

/-! ## Float literals -/

namespace Value

/-- A reader of a binary kind gives values of this kind only. -/
theorem kind_of_readFloating {k : FloatKind} {body : List Char} {v : Value}
    (h : readFloating k body = .ok v) : v.kind = .floating k := by
  unfold readFloating at h
  split at h
  · cases h
  · split at h
    · cases h; rfl
    · split at h
      · cases h
      · cases h; rfl
    · cases h

/-- A number of a binary kind comes from a literal with that kind's name, whose number text is
read for that kind. -/
theorem exists_framed_of_parse {text : List Char} {v : Value} {k : FloatKind} (h : parse text = .ok v)
    (hkind : v.kind = .floating k) :
    ∃ tag body, Framed tag body text ∧ Kind.Spells tag k.name.toList ∧ readFloating k body = .ok v := by
  unfold parse at h
  split at h
  · cases h
  · next parts hsplit =>
    have hframed := splitLiteral?_eq_some_iff.mp hsplit
    split at h
    · cases h
    · -- the readers of the other kinds give values of their own kind
      have hinteger := kind_of_readInteger h
      rw [hkind] at hinteger
      cases hinteger
    · next j hname =>
      have hread := eq_ok_of_mapError h
      have hjk := (kind_of_readFloating hread).symm.trans hkind
      obtain rfl := Kind.floating.inj hjk
      exact ⟨parts.tag, parts.body, hframed, Kind.ofName?_toLower_eq_some_iff.mp hname, hread⟩
    · have hdecimal := kind_of_readDecimal (eq_ok_of_mapError h)
      rw [hkind] at hdecimal
      cases hdecimal

/-- What a float literal is read as: the double nearest to the numeral, unless that is too large, rounded
to a float. -/
theorem readFloating_float {body : List Char} {v : Value} (h : readFloating .float body = .ok v) :
    ∃ (n : Numeral) (d : Binary .double), Numeral.readFloating? body = some (.numeral n)
      ∧ d.IsNearest n.rational ∧ (Binary.convert .single d).isFinite = true
      ∧ v = ⟨.floating .float, Binary.convert .single d⟩ := by
  unfold readFloating at h
  split at h
  · cases h
  · next t ht =>
    split at h
    · next hkind => cases hkind
    · next negative units hunits hd _ =>
      split at h
      · cases h
      · next hle =>
        cases t with
        | nan =>
          -- only a numeral can be a finite double
          cases hd
        | infinity negative' => cases hd
        | numeral n =>
          have hread : Binary.ofDecimal .double n.negative n.coefficient n.exponent
              = .finite negative units hunits := hd
          -- the one rounding of the numeral to a double
          have hnearest : (Binary.ofDecimal .double n.negative n.coefficient n.exponent).IsNearest
              n.rational :=
            Binary.isNearest_ofDecimal (by decide) (by decide) (by rw [hread]; rfl)
          rw [hread] at hnearest
          cases h
          exact ⟨n, _, ht, hnearest, isFinite_convert_single hunits (not_lt.mp hle), rfl⟩
    · cases h

end Value

/-- **The value of a float literal is the float nearest to its numeral**, unless the nearest double lies
halfway between this float and another one on whose side the numeral is. -/
theorem float_literals_rounded_twice {text : List Char} {v : Value} (h : Value.parse text = .ok v)
    (hkind : v.kind = .floating .float) :
    ∃ (tag body : List Char) (r : ℚ) (x : Binary .single),
      Value.Framed tag body text ∧ Kind.Spells tag "float".toList
        ∧ Numeral.DecimalText (body.filter (· ≠ '_')) r ∧ v = ⟨.floating .float, x⟩
        ∧ (x.IsNearest r ↔ ¬∃ y, Binary.MisroundedVia .double x y r) := by
  obtain ⟨tag, body, hframed, htag, hread⟩ := Value.exists_framed_of_parse h hkind
  obtain ⟨n, d, hnumeral, hnearest, hfinite, hv⟩ := Value.readFloating_float hread
  obtain ⟨c, hdc, -⟩ := id hnearest
  refine ⟨tag, body, n.rational, _, hframed, htag, Numeral.decimalText_of_readFloating? hnumeral, hv, ?_⟩
  exact Binary.isNearest_iff_not_misroundedVia Format.double_refines_single (by decide) hnearest hdc
    (Binary.isNearest_convert (by decide) hfinite hdc)

/-- A tenth with an underscore in its digits, which the text that denotes the number is without.
The value is the float that the literal is read as. -/
theorem float_literals_rounded_twice_tenth :
    ∃ (tag body : List Char) (r : ℚ) (x : Binary .single),
      Value.Framed tag body "float(1_0e-2)".toList ∧ Kind.Spells tag "float".toList
        ∧ Numeral.DecimalText (body.filter (· ≠ '_')) r
        ∧ (⟨.floating .float, .finite false (13421773 * 2 ^ 122) (by decide +kernel)⟩ : Value)
          = ⟨.floating .float, x⟩
        ∧ (x.IsNearest r ↔ ¬∃ y, Binary.MisroundedVia .double x y r) :=
  float_literals_rounded_twice (by decide +kernel) rfl

/-- Between the middle of two floats and the next double, the farther float is taken. The literal
is just above the middle, the double is the middle itself, and from there it goes to the even
neighbour. -/
theorem float_literal_misses_nearest :
    ∃ (r : ℚ) (x : Binary .single),
      Value.parse "float(1.00000005960464477540)".toList = .ok ⟨.floating .float, x⟩
        ∧ Numeral.DecimalText "1.00000005960464477540".toList r ∧ ¬x.IsNearest r := by
  have hread : Numeral.read? "1.00000005960464477540".toList
      = some ⟨false, 100000005960464477540, -20⟩ := by
    decide +kernel
  refine ⟨_, .finite false (2 ^ 149) (by decide +kernel), by decide +kernel,
    Numeral.decimalText_of_read? hread, ?_⟩
  rintro ⟨a, ha, hnear⟩
  obtain rfl := Quantity.rational.inj ha
  have hle := (hnear (.finite false (2 ^ 149 + 2 ^ 126) (by decide +kernel)) _ rfl).1
  rw [Numeral.rational, signed_false, signed_false, signed_false, show Format.single.scale = 149 from rfl,
    ← sq_le_sq] at hle
  norm_num at hle

end StackMachine
