import Mathlib
import StackMachine.Proofs.FloatLiterals
import StackMachine.Proofs.FloatMiddles
import StackMachine.Proofs.FloatTexts
import StackMachine.Proofs.HalfwayNumbers

/-!
# Floats printed and parsed

The text of a float is its shortest decimal, and a float literal is rounded twice. The way through the
doubles leads back to the float with two exceptions. The shortest decimal of the largest float is larger
than the float itself, and the double next to it is refused as out of range. The shortest decimal of
`11420669 / 2 ^ 107` is next to the middle of that float and its neighbour, and the neighbour is read.

* **`Binary.convert_of_rounded`**, **`Value.readFloating_of_rounded`**: the two steps of reading.
* **`Value.parse_float_literal`**: all floats but two survive.
* **`float_literals_read_back_iff`**: the two do not.
-/

namespace StackMachine

/-- A converted number is a rounded one, and which one can be found on the rationals. -/
theorem Binary.convert_of_rounded {fmt target : Format} {u v : Nat} (hu : fmt.Representable u)
    (hv : target.Representable v) (h : target.rounded (u * 2 ^ target.scale / 2 ^ fmt.scale) = v)
    (negative : Bool) : convert target (.finite negative u hu) = .finite negative v hv := by
  have hnearest : target.nearest (u * 2 ^ target.scale) (2 ^ fmt.scale) = v := by
    rw [← Format.rounded_div target _ (Nat.two_pow_pos fmt.scale), ← h]
    push_cast
    rfl
  show ofUnits target negative (u * 2 ^ target.scale) (2 ^ fmt.scale) = _
  simp only [ofUnits, hnearest]
  rw [dif_pos hv]

namespace Format

/-- No float is larger than the largest one, in units. -/
theorem le_largest_single {u : Nat} (hu : Format.single.Representable u) : u ≤ Format.single.largest := by
  have hlargest : Format.single.Representable Format.single.largest := representable_largest (by decide)
  by_contra hgt
  have hnext := next_le (spacing_dvd hlargest) (spacing_dvd hu) (Nat.lt_of_not_le hgt)
  have htop : Format.single.largest + Format.single.spacing Format.single.largest
      = 2 ^ Format.single.bound := by decide +kernel
  rw [htop] at hnext
  exact absurd (Binary.lt_bound_of_representable hu) (Nat.not_lt.mpr hnext)

end Format

namespace Value

/-- A float literal whose double is no larger than the largest float is read as that double,
rounded again. The two roundings are hypotheses, so that the cases below can differ in how they
find them. -/
theorem readFloating_of_rounded {body : List Char} {negative : Bool} {c d u : Nat} {e : Int}
    (hbody : Numeral.readFloating? body = some (.numeral ⟨negative, c, e⟩))
    (hd : Format.double.Representable d)
    (hround : Format.double.rounded (c * 10 ^ e * 2 ^ Format.double.scale) = d)
    (hle : d ≤ largestFloat) (hu : Format.single.Representable u)
    (hround' : Format.single.rounded (d * 2 ^ Format.single.scale / 2 ^ Format.double.scale) = u) :
    readFloating .float body = .ok ⟨.floating .float, .finite negative u hu⟩ := by
  have hread : Binary.ofNumberText .double (.numeral ⟨negative, c, e⟩) = .finite negative d hd :=
    Binary.ofDecimal_of_rounded (by decide) (by decide) hd hround negative
  simp only [readFloating, hbody, hread]
  rw [if_neg (Nat.not_lt.mpr hle), Binary.convert_of_rounded hd hu hround']
  rfl

/-- The largest float in units of a double. The range of float literals is tested on the double.
-/
theorem largest_mul : Format.single.largest * 2 ^ (Format.double.scale - Format.single.scale)
    = largestFloat := by
  decide +kernel

/-- The decimal of a float that is not the largest one stays below the next float, which is the
largest one at most. So its double is in range. -/
theorem printed_le_largest {u : Nat} (hu : Format.single.Representable u) (hne : u ≠ Format.single.largest) :
    Binary.printed .single u ≤ Format.single.largest := by
  have hlargest : Format.single.Representable Format.single.largest :=
    Format.representable_largest (by decide)
  have hlt : u < Format.single.largest := Nat.lt_of_le_of_ne (Format.le_largest_single hu) hne
  by_contra hgt
  have hle := Format.le_rounded (by decide) (Format.spacing_dvd hlargest) (not_le.mp hgt).le
  rw [Binary.rounded_printed (by decide) (Format.spacing_dvd hu)] at hle
  omega

/-- **All floats but two survive printing and parsing.** The decimal is rounded to a double first.
Unless the double lands on a middle, it is rounded to the float; and the decimal is close to a
middle only for one float. -/
theorem parse_float_literal {u : Nat} (hu : FloatKind.float.format.Representable u) (negative : Bool)
    (hne : u ≠ Format.single.largest) (hmiddle : u ≠ 11420669 * 2 ^ 42) :
    parse (literal ⟨.floating .float, Binary.finite negative u hu⟩).toList
      = .ok ⟨.floating .float, Binary.finite negative u hu⟩ := by
  have hlargest : Format.single.Representable Format.single.largest :=
    Format.representable_largest (by decide)
  obtain ⟨c, e, hread, hvalue⟩ := Binary.readFloating?_text FloatKind.float.layout negative hu
  change (c : ℚ) * 10 ^ e * 2 ^ Format.single.scale = Binary.printed .single u at hvalue
  obtain ⟨d, v, hd, hle, hv, hround, hround'⟩ := Format.double_refines_single.exists_rounded (by decide)
    (Binary.printed_nonneg .single u) hlargest (printed_le_largest hu hne)
  have hrounded : Format.single.rounded (Binary.printed .single u) = u :=
    Binary.rounded_printed (by decide) (Format.spacing_dvd hu)
  have hvu : v = u := by
    by_contra hdiffers
    -- the decimal is next to a middle, and only one float has such a decimal
    obtain ⟨hodd, m, hm, hoff, hnear⟩ := Format.double_refines_single.exists_halfway (by decide)
      (Binary.printed_nonneg .single u) (by decide) hu hd hv hrounded hround hround' hdiffers
    have hprinted : Binary.printed .single u = (Binary.shortest .single u).units .single := by
      rw [Binary.printed, if_neg]
      rintro rfl
      exact absurd hodd (by decide)
    rw [hprinted] at hoff hnear
    exact hmiddle (Binary.eq_of_near_middle hu hodd hm hoff hnear)
  rw [largest_mul] at hle
  rw [hvu, ← Format.double_refines_single.mul_div_two_pow_scale] at hround'
  have hfirst : Format.double.rounded (c * 10 ^ e * 2 ^ Format.double.scale) = d := by
    rw [← hround, Format.double_refines_single.mul_two_pow_scale, hvalue]
  rw [parse_floating_literal, readFloating_of_rounded hread hd hfirst hle hu hround']
  rfl

/-! ## The two exceptions -/

/-- The text of the largest float is refused: the double that it is read as is larger, by less
than half a gap of floats. -/
theorem parse_largest_literal (negative : Bool)
    (hu : FloatKind.float.format.Representable Format.single.largest) :
    parse (literal ⟨.floating .float, Binary.finite negative Format.single.largest hu⟩).toList
      = .error (.invalid (.floatOutOfRange (Decimal.signText negative ++ "3.4028235e+38".toList))) := by
  have hread : readFloating .float (Binary.text FloatKind.float.layout
      (.finite negative Format.single.largest (Format.representable_largest (by decide)) : Binary .single))
      = .error (.floatOutOfRange (Decimal.signText negative ++ "3.4028235e+38".toList)) := by
    cases negative with
    | false => decide +kernel
    | true => decide +kernel
  rw [parse_floating_literal]
  exact congrArg (Except.mapError ReadError.invalid) hread

/-- The text of the other exception is read as the next float, which has an even significand. Its
decimal is so close to the middle that the double is the middle. -/
theorem parse_middle_literal (negative : Bool)
    (hu : FloatKind.float.format.Representable (11420669 * 2 ^ 42)) :
    parse (literal ⟨.floating .float, Binary.finite negative (11420669 * 2 ^ 42) hu⟩).toList
      = .ok ⟨.floating .float, .finite negative (11420670 * 2 ^ 42) (by decide +kernel)⟩ := by
  have hread : readFloating .float (Binary.text FloatKind.float.layout
      (.finite negative (11420669 * 2 ^ 42) (by decide +kernel) : Binary .single))
      = .ok ⟨.floating .float, .finite negative (11420670 * 2 ^ 42) (by decide +kernel)⟩ := by
    cases negative with
    | false => decide +kernel
    | true => decide +kernel
  rw [parse_floating_literal]
  exact congrArg (Except.mapError ReadError.invalid) hread

/-- The magnitude of a float, compared in units. It lets the two exceptions be named by the
numbers that they are. -/
theorem abs_quantity_eq_iff (negative : Bool) {u p : Nat} {q : ℚ} (hp : (p : ℚ) = q * 2 ^ 149) :
    |(signed negative u : ℚ) / 2 ^ 149| = q ↔ u = p := by
  rw [abs_div, abs_signed, abs_of_pos (by positivity : (0 : ℚ) < 2 ^ 149), div_eq_iff (by positivity), ← hp]
  exact Nat.cast_inj

end Value

/-- **A float that a literal stands for survives printing and parsing** if and only if it is neither the
largest float nor `11420669 / 2 ^ 107`, with either sign. -/
theorem float_literals_read_back_iff {text : List Char} {v : Value} (h : Value.parse text = .ok v)
    (hkind : v.kind = .floating .float) :
    Value.parse v.literal.toList = .ok v
      ↔ ∀ r, v.quantity = .rational r → |r| ≠ (2 ^ 24 - 1) * 2 ^ 104 ∧ |r| ≠ 11420669 / 2 ^ 107 := by
  have hfinite := Value.isFinite_of_parse h
  obtain ⟨kind, x⟩ := v
  obtain rfl : kind = .floating .float := hkind
  cases x with
  | nan => cases hfinite
  | infinity negative => cases hfinite
  | finite negative u hu =>
    -- the two exceptions in units, in which the literals are known
    have hlargest : |(signed negative u : ℚ) / 2 ^ 149| = (2 ^ 24 - 1) * 2 ^ 104
        ↔ u = Format.single.largest :=
      Value.abs_quantity_eq_iff negative (by norm_num [Format.largest, Format.single])
    have hmiddle : |(signed negative u : ℚ) / 2 ^ 149| = 11420669 / 2 ^ 107 ↔ u = 11420669 * 2 ^ 42 :=
      Value.abs_quantity_eq_iff negative (by norm_num)
    constructor
    · intro hread r hr
      obtain rfl := Quantity.rational.inj hr
      constructor
      · intro habs
        -- the literal of the largest float is refused
        obtain rfl := hlargest.mp habs
        rw [Value.parse_largest_literal] at hread
        cases hread
      · intro habs
        -- the other one is read as its neighbour
        obtain rfl := hmiddle.mp habs
        rw [Value.parse_middle_literal] at hread
        injection hread with hvalue
        injection hvalue with _ hnumber
        injection hnumber with _ hunits
        omega
    · intro hnot
      have hr := hnot _ rfl
      exact Value.parse_float_literal hu negative (fun hu => hr.1 (hlargest.mpr hu))
        (fun hu => hr.2 (hmiddle.mpr hu))

/-- The float next below the largest one survives, so the exception is the largest one alone. -/
theorem float_literals_read_back_iff_below_largest :
    ∃ v, Value.parse "float(3.4028232e38)".toList = .ok v ∧ v.kind = .floating .float
      ∧ v.literal = "float(3.4028233e+38)" ∧ Value.parse v.literal.toList = .ok v := by
  have hparse : Value.parse "float(3.4028232e38)".toList
      = .ok ⟨.floating .float, Binary.finite false ((2 ^ 24 - 2) * 2 ^ 253) (by decide +kernel)⟩ := by
    decide +kernel
  refine ⟨_, hparse, rfl, by decide +kernel, (float_literals_read_back_iff hparse rfl).mpr ?_⟩
  intro r hr
  obtain rfl := Quantity.rational.inj hr
  norm_num [signed, FloatKind.format, Format.single]

/-- The largest float prints a literal that is out of range, and the other exception the literal of its
neighbour. -/
theorem float_literals_not_read_back :
    (∃ v, Value.parse "float(3.4028234663852886e38)".toList = .ok v ∧ v.literal = "float(3.4028235e+38)"
      ∧ Value.parse v.literal.toList = .error (.invalid (.floatOutOfRange "3.4028235e+38".toList)))
    ∧ ∃ v w, Value.parse "float(7.0385307e-26)".toList = .ok v ∧ v.literal = "float(7.038531e-26)"
      ∧ Value.parse v.literal.toList = .ok w ∧ w.literal = "float(7.0385313e-26)" := by
  have hlargest : Value.parse "float(3.4028234663852886e38)".toList
      = .ok ⟨.floating .float, Binary.finite false Format.single.largest (by decide +kernel)⟩ := by
    decide +kernel
  have hmiddle : Value.parse "float(7.0385307e-26)".toList
      = .ok ⟨.floating .float, Binary.finite false (11420669 * 2 ^ 42) (by decide +kernel)⟩ := by
    decide +kernel
  exact ⟨⟨_, hlargest, by decide +kernel, Value.parse_largest_literal false _⟩,
    _, _, hmiddle, by decide +kernel, Value.parse_middle_literal false _, by decide +kernel⟩

end StackMachine
