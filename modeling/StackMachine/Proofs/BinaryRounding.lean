import Mathlib
import StackMachine.Binary.Basic

/-!
# Rounding to a binary format

A number of units is in a format if and only if it is a significand of limited length times a power
of two. Rounding leaves such numbers alone and never crosses one of them, and it does not depend on
how a quotient is written. What the conversions between formats do follows from these three facts.

* **`Format.representable_iff`**: the numbers of a format.
* **`Format.nearest_of_representable`**, **`Format.nearest_le`**, **`Format.nearest_mul_right`**: the
  three facts about rounding.
* **`Format.Embeds.convert_convert`**, **`Format.Embeds.toDecimal_convert`**: a wider format loses
  nothing.
* **`Format.representable_int`**, **`Binary.ofInt_eq`**, **`Binary.convert_ofInt`**: integers of the
  precision are exact.
-/

namespace StackMachine

/-! ## Quotients rounded to the nearest -/

section

variable {num den : Nat}

theorem roundDiv_mul_self (hd : 0 < den) (c : Nat) : roundDiv (c * den) den = c := by
  simp [roundDiv, Nat.mul_div_cancel c hd, hd]

/-- A common factor of numerator and denominator does not change where the quotient is rounded to.
-/
theorem roundDiv_mul_right {k : Nat} (hk : 0 < k) (num den : Nat) :
    roundDiv (num * k) (den * k) = roundDiv num den := by
  have hlt : 2 * (num % den * k) < den * k ↔ 2 * (num % den) < den := by
    rw [← Nat.mul_assoc]
    exact Nat.mul_lt_mul_right hk
  have hgt : den * k < 2 * (num % den * k) ↔ den < 2 * (num % den) := by
    rw [← Nat.mul_assoc]
    exact Nat.mul_lt_mul_right hk
  simp only [roundDiv, Nat.mul_div_mul_right num den hk, Nat.mul_mod_mul_right, hlt, hgt]

/-- Rounding never crosses a whole number: what is not above one is not rounded above it. -/
theorem roundDiv_le {c : Nat} (hd : 0 < den) (h : num ≤ c * den) : roundDiv num den ≤ c := by
  have hsplit := Nat.div_add_mod' num den
  rcases Nat.lt_or_ge (num / den) c with hlt | hge
  · -- below `c` there is room for rounding up
    unfold roundDiv
    dsimp only
    split_ifs <;> omega
  · -- the quotient is `c`, and nothing is left over
    have hmul : c * den ≤ num / den * den := Nat.mul_le_mul_right den hge
    have hexact : num = c * den := by omega
    rw [hexact, roundDiv_mul_self hd]

end

/-! ## The numbers of a format -/

namespace Format

variable {fmt : Format} {u num den : Nat}

/-- The gap between neighbours as a power of two. Below the precision the subtraction is zero, and
the gap is a single unit. -/
theorem spacing_eq (fmt : Format) (u : Nat) : fmt.spacing u = 2 ^ (u.log2 + 1 - fmt.precision) :=
  rfl

theorem spacing_pos (fmt : Format) (u : Nat) : 0 < fmt.spacing u :=
  Nat.two_pow_pos _

/-- A number of units with a significand of the precision, whether it is below the bound or not. -/
def Spaced (fmt : Format) (u : Nat) : Prop :=
  fmt.spacing u ∣ u

theorem spacing_dvd (h : fmt.Representable u) : fmt.Spaced u :=
  Nat.dvd_of_mod_eq_zero h.2

/-- The gaps between neighbours grow with the magnitude, and a larger one is a multiple of every
smaller one. So a number that fits a wide grid fits all narrower ones. -/
theorem spacing_dvd_spacing {v : Nat} (h : u ≤ v) : fmt.spacing u ∣ fmt.spacing v := by
  have hlog : u.log2 ≤ v.log2 := by
    rw [Nat.log2_eq_log_two, Nat.log2_eq_log_two]
    exact Nat.log_mono_right h
  rw [spacing_eq, spacing_eq]
  exact Nat.pow_dvd_pow 2 (by omega)

/-- A magnitude is less than `2 ^ precision` gaps, so the gaps below it can be counted by a
significand. -/
theorem lt_mul_spacing (fmt : Format) (u : Nat) : u < 2 ^ fmt.precision * fmt.spacing u := by
  calc u < 2 ^ (u.log2 + 1) := Nat.lt_log2_self
    _ ≤ 2 ^ (fmt.precision + (u.log2 + 1 - fmt.precision)) :=
      Nat.pow_le_pow_right Nat.two_pos (by omega)
    _ = 2 ^ fmt.precision * fmt.spacing u := by rw [pow_add, spacing_eq]

/-- A significand of the precision with any power of two is on the grid at its own magnitude. The
significand may be short, and then the grid there is finer than the power. -/
theorem spaced_of_mul {m : Nat} (hm : m < 2 ^ fmt.precision) (e : Nat) : fmt.Spaced (m * 2 ^ e) := by
  rcases Nat.eq_zero_or_pos (m * 2 ^ e) with hzero | hpos
  · rw [Spaced, hzero]
    exact Nat.dvd_zero _
  · -- the gap at this magnitude is at most the power of two that is a factor anyway
    have hlt : m * 2 ^ e < 2 ^ (fmt.precision + e) := by
      rw [pow_add]
      exact Nat.mul_lt_mul_of_pos_right hm (Nat.two_pow_pos e)
    have hlog : (m * 2 ^ e).log2 < fmt.precision + e := (Nat.log2_lt hpos.ne').mpr hlt
    rw [Spaced, spacing_eq]
    exact Nat.dvd_mul_left_of_dvd (Nat.pow_dvd_pow 2 (by omega)) m

theorem representable_of_mul {m e : Nat} (hm : m < 2 ^ fmt.precision)
    (hbound : m * 2 ^ e < 2 ^ fmt.bound) : fmt.Representable (m * 2 ^ e) :=
  ⟨hbound, Nat.mod_eq_zero_of_dvd (spaced_of_mul hm e)⟩

/-- **The numbers of a format** are those below its bound that have a significand of its
precision. The definition tests divisibility by the gap, which can be decided; this is what it
means. -/
theorem representable_iff :
    fmt.Representable u ↔ u < 2 ^ fmt.bound ∧ ∃ m e, m < 2 ^ fmt.precision ∧ u = m * 2 ^ e := by
  constructor
  · intro h
    refine ⟨h.1, u / fmt.spacing u, u.log2 + 1 - fmt.precision, ?_, ?_⟩
    · apply Nat.div_lt_of_lt_mul
      rw [Nat.mul_comm]
      exact lt_mul_spacing fmt u
    · rw [← spacing_eq]
      exact (Nat.div_mul_cancel (spacing_dvd h)).symm
  · rintro ⟨hbound, m, e, hm, rfl⟩
    exact representable_of_mul hm hbound

/-! ## Rounding to a format -/

/-- **Numbers of the format are left alone**, however they are written as a quotient. -/
theorem nearest_of_representable (h : fmt.Representable u) (hd : 0 < den) :
    fmt.nearest (u * den) den = u := by
  have hgap : 0 < fmt.spacing u := spacing_pos fmt u
  have hu : u / fmt.spacing u * fmt.spacing u = u := Nat.div_mul_cancel (spacing_dvd h)
  have hnum : u * den = u / fmt.spacing u * (den * fmt.spacing u) := by
    rw [Nat.mul_comm den, ← Nat.mul_assoc, hu]
  simp only [nearest, Nat.mul_div_cancel u hd]
  rw [hnum, roundDiv_mul_self (Nat.mul_pos hd hgap), hu]

/-- **No number of the format is crossed.** The grid is that of the quotient before it is rounded,
and the number above it lies on this grid too. -/
theorem nearest_le (h : fmt.Spaced u) (hd : 0 < den) (hle : num ≤ u * den) :
    fmt.nearest num den ≤ u := by
  have hquot : num / den ≤ u := Nat.div_le_of_le_mul (by rwa [Nat.mul_comm])
  -- the gap at the smaller magnitude divides the larger one
  have hdvd : fmt.spacing (num / den) ∣ u := (spacing_dvd_spacing hquot).trans h
  have hgap : 0 < fmt.spacing (num / den) := spacing_pos fmt _
  obtain ⟨c, hc⟩ := hdvd
  rw [Nat.mul_comm] at hc
  have hround : roundDiv num (den * fmt.spacing (num / den)) ≤ c := by
    apply roundDiv_le (Nat.mul_pos hd hgap)
    calc num ≤ u * den := hle
      _ = c * (den * fmt.spacing (num / den)) := by rw [hc]; ring
  calc fmt.nearest num den
      = roundDiv num (den * fmt.spacing (num / den)) * fmt.spacing (num / den) := rfl
    _ ≤ c * fmt.spacing (num / den) := Nat.mul_le_mul_right _ hround
    _ = u := hc.symm

/-- **How a quotient is written makes no difference.** The grid depends on the quotient only. -/
theorem nearest_mul_right {k : Nat} (hk : 0 < k) (num den : Nat) :
    fmt.nearest (num * k) (den * k) = fmt.nearest num den := by
  simp only [nearest, Nat.mul_div_mul_right num den hk]
  rw [Nat.mul_right_comm, roundDiv_mul_right hk]

/-- A quotient is rounded to `2 ^ precision` gaps at most. That many gaps are reached when
rounding up carries into a new digit. -/
theorem roundDiv_spacing_le (fmt : Format) (num : Nat) (hd : 0 < den) :
    roundDiv num (den * fmt.spacing (num / den)) ≤ 2 ^ fmt.precision := by
  apply roundDiv_le (Nat.mul_pos hd (spacing_pos fmt _))
  have hlt := (Nat.div_lt_iff_lt_mul hd).mp (lt_mul_spacing fmt (num / den))
  calc num ≤ 2 ^ fmt.precision * fmt.spacing (num / den) * den := hlt.le
    _ = 2 ^ fmt.precision * (den * fmt.spacing (num / den)) := by ring

/-- A rounded number has a significand of the precision. Where rounding has carried, it is a power
of two, and one digit is enough for it. -/
theorem spaced_nearest (hp : 0 < fmt.precision) (num : Nat) (hd : 0 < den) :
    fmt.Spaced (fmt.nearest num den) := by
  rcases Nat.lt_or_eq_of_le (roundDiv_spacing_le fmt num hd) with hlt | heq
  · exact spaced_of_mul hlt _
  · -- rounding up has carried into a new digit, and the result is a power of two
    have hpower : fmt.nearest num den
        = 1 * 2 ^ (fmt.precision + ((num / den).log2 + 1 - fmt.precision)) := by
      rw [nearest, heq, Nat.one_mul, pow_add, ← spacing_eq]
    rw [hpower]
    exact spaced_of_mul (Nat.one_lt_two_pow hp.ne') _

/-- Only the bound may be missed: a rounded number below it is one of the format. -/
theorem representable_nearest (hp : 0 < fmt.precision) (hd : 0 < den)
    (hbound : fmt.nearest num den < 2 ^ fmt.bound) : fmt.Representable (fmt.nearest num den) :=
  ⟨hbound, Nat.mod_eq_zero_of_dvd (spaced_nearest hp num hd)⟩

end Format

/-! ## Numbers of the formats -/

namespace Binary

variable {fmt : Format} {u num den : Nat}

/-- A number of the format, written as a quotient, is made as it is. -/
theorem ofUnits_of_representable (h : fmt.Representable u) (hd : 0 < den) (negative : Bool) :
    ofUnits fmt negative (u * den) den = .finite negative u h := by
  have hround : fmt.Representable (fmt.nearest (u * den) den) := by
    rwa [Format.nearest_of_representable h hd]
  rw [ofUnits, dif_pos hround]
  congr 1
  exact Format.nearest_of_representable h hd

theorem ofUnits_mul_right {k : Nat} (hk : 0 < k) (negative : Bool) (num den : Nat) :
    ofUnits fmt negative (num * k) (den * k) = ofUnits fmt negative num den := by
  simp only [ofUnits, Format.nearest_mul_right hk]

/-- What does not exceed a number of the format does not overflow, because rounding does not cross
that number. -/
theorem isFinite_ofUnits (hp : 0 < fmt.precision) (h : fmt.Representable u) (hd : 0 < den)
    (hle : num ≤ u * den) (negative : Bool) : (ofUnits fmt negative num den).isFinite = true := by
  have hbound : fmt.nearest num den < 2 ^ fmt.bound :=
    Nat.lt_of_le_of_lt (Format.nearest_le (Format.spacing_dvd h) hd hle) h.1
  rw [ofUnits, dif_pos (Format.representable_nearest hp hd hbound)]
  rfl

/-- A number that is in the target format too is converted to itself. The equation compares the
two numbers of units at a common scale. -/
theorem convert_finite {target : Format} {v : Nat} (hu : fmt.Representable u)
    (hv : target.Representable v) (h : u * 2 ^ target.scale = v * 2 ^ fmt.scale) (negative : Bool) :
    convert target (.finite negative u hu) = .finite negative v hv := by
  show ofUnits target negative (u * 2 ^ target.scale) (2 ^ fmt.scale) = .finite negative v hv
  rw [h]
  exact ofUnits_of_representable hv (Nat.two_pow_pos _) negative

/-- A number that does not exceed one of the target format stays finite, though it may be rounded.
-/
theorem isFinite_convert {target : Format} {v : Nat} (hp : 0 < target.precision)
    (hu : fmt.Representable u) (hv : target.Representable v)
    (hle : u * 2 ^ target.scale ≤ v * 2 ^ fmt.scale) (negative : Bool) :
    (convert target (.finite negative u hu)).isFinite = true :=
  isFinite_ofUnits hp hv (Nat.two_pow_pos _) hle negative

theorem convert_self (x : Binary fmt) : convert fmt x = x := by
  cases x with
  | nan => rfl
  | infinity negative => rfl
  | finite negative u h => exact convert_finite h h rfl negative

/-- Factors of two that numerator and denominator share are cancelled in any case. Induction on
their number. -/
theorem lowestTerms_mul (n limit k : Nat) :
    lowestTerms (n * 2 ^ k) (limit + k) = lowestTerms n limit := by
  induction k with
  | zero => rw [pow_zero, Nat.mul_one, Nat.add_zero]
  | succ k ih =>
    -- one halving takes off one factor and one of the halvings that are allowed
    have hdouble : n * 2 ^ (k + 1) = n * 2 ^ k * 2 := by rw [pow_succ, Nat.mul_assoc]
    have heven : n * 2 ^ k * 2 % 2 = 0 := Nat.mul_mod_left _ 2
    have hhalf : n * 2 ^ k * 2 / 2 = n * 2 ^ k := Nat.mul_div_cancel _ Nat.two_pos
    rw [hdouble, ← Nat.add_assoc, lowestTerms, if_pos heven, hhalf, ih]

end Binary

/-! ## A wider format -/

/-- All numbers of the first format are numbers of the second one, whose unit is not larger. -/
structure Format.Embeds (fmt wide : Format) : Prop where
  precision : fmt.precision ≤ wide.precision
  scale : fmt.scale ≤ wide.scale
  bound : fmt.bound + (wide.scale - fmt.scale) ≤ wide.bound

theorem Format.single_embeds_double : Format.Embeds .single .double :=
  ⟨by decide, by decide, by decide⟩

namespace Format.Embeds

variable {fmt wide : Format} {u : Nat}

theorem two_pow_scale (h : Embeds fmt wide) :
    2 ^ wide.scale = 2 ^ (wide.scale - fmt.scale) * 2 ^ fmt.scale := by
  rw [← pow_add, Nat.sub_add_cancel h.scale]

/-- A number of the narrow format is one of the wide format, at its finer scale. -/
theorem representable (h : Embeds fmt wide) (hu : fmt.Representable u) :
    wide.Representable (u * 2 ^ (wide.scale - fmt.scale)) := by
  obtain ⟨hbound, m, e, hm, rfl⟩ := Format.representable_iff.mp hu
  rw [Nat.mul_assoc, ← pow_add]
  apply Format.representable_of_mul
  · exact Nat.lt_of_lt_of_le hm (Nat.pow_le_pow_right Nat.two_pos h.precision)
  · calc m * 2 ^ (e + (wide.scale - fmt.scale))
        = m * 2 ^ e * 2 ^ (wide.scale - fmt.scale) := by rw [pow_add, Nat.mul_assoc]
      _ < 2 ^ fmt.bound * 2 ^ (wide.scale - fmt.scale) :=
        Nat.mul_lt_mul_of_pos_right hbound (Nat.two_pow_pos _)
      _ = 2 ^ (fmt.bound + (wide.scale - fmt.scale)) := (pow_add 2 _ _).symm
      _ ≤ 2 ^ wide.bound := Nat.pow_le_pow_right Nat.two_pos h.bound

/-- Conversion to the wide format is exact, and only the scale of the units changes. -/
theorem convert_finite (h : Embeds fmt wide) (hu : fmt.Representable u) (negative : Bool) :
    Binary.convert wide (.finite negative u hu)
      = .finite negative (u * 2 ^ (wide.scale - fmt.scale)) (h.representable hu) := by
  apply Binary.convert_finite
  rw [h.two_pow_scale, Nat.mul_assoc]

/-- **A number comes back from the wider format unchanged.** The way there is exact, so the way
back rounds a number of the format. -/
theorem convert_convert (h : Embeds fmt wide) (x : Binary fmt) :
    Binary.convert fmt (Binary.convert wide x) = x := by
  cases x with
  | nan => rfl
  | infinity negative => rfl
  | finite negative u hu =>
    rw [h.convert_finite]
    apply Binary.convert_finite
    rw [h.two_pow_scale, Nat.mul_assoc]

/-- **A number is the same decimal in both formats**, with the same coefficient and exponent,
since the fraction is cancelled before it is written out. -/
theorem toDecimal_convert (h : Embeds fmt wide) (x : Binary fmt) :
    (Binary.convert wide x).toDecimal = x.toDecimal := by
  cases x with
  | nan => rfl
  | infinity negative => rfl
  | finite negative u hu =>
    have hterms := Binary.lowestTerms_mul u fmt.scale (wide.scale - fmt.scale)
    rw [Nat.add_sub_cancel' h.scale] at hterms
    rw [h.convert_finite, Binary.toDecimal, Binary.toDecimal, hterms]

end Format.Embeds

/-! ## Integers in a format -/

namespace Format

variable {fmt : Format} {n : Int}

/-- The format has room for all integers of its precision. -/
def HoldsIntegers (fmt : Format) : Prop :=
  fmt.precision + fmt.scale ≤ fmt.bound

/-- An integer of no more digits than the precision is a number of the format, provided the bound
leaves room for it. -/
theorem representable_int (hfmt : fmt.HoldsIntegers) (hn : n.natAbs < 2 ^ fmt.precision) :
    fmt.Representable (n.natAbs * 2 ^ fmt.scale) := by
  apply representable_of_mul hn
  calc n.natAbs * 2 ^ fmt.scale
      < 2 ^ fmt.precision * 2 ^ fmt.scale := Nat.mul_lt_mul_of_pos_right hn (Nat.two_pow_pos _)
    _ = 2 ^ (fmt.precision + fmt.scale) := (pow_add 2 _ _).symm
    _ ≤ 2 ^ fmt.bound := Nat.pow_le_pow_right Nat.two_pos hfmt

end Format

namespace Binary

variable {fmt : Format} {n : Int}

/-- **Integers that are numbers of the format are exact.** This includes those with more digits
than the precision that end in zeros. -/
theorem ofInt_eq (h : fmt.Representable (n.natAbs * 2 ^ fmt.scale)) :
    ofInt fmt n = .finite (n < 0) (n.natAbs * 2 ^ fmt.scale) h := by
  have hexact := ofUnits_of_representable h Nat.one_pos (decide (n < 0))
  rwa [Nat.mul_one] at hexact

/-- **An exact integer is rounded only once when it is converted**, so promotion may go through an
intermediate format that holds it. -/
theorem convert_ofInt (h : fmt.Representable (n.natAbs * 2 ^ fmt.scale)) (target : Format) :
    convert target (ofInt fmt n) = ofInt target n := by
  rw [ofInt_eq h]
  show ofUnits target (n < 0) (n.natAbs * 2 ^ fmt.scale * 2 ^ target.scale) (2 ^ fmt.scale)
    = ofUnits target (n < 0) (n.natAbs * 2 ^ target.scale) 1
  rw [Nat.mul_right_comm, ← ofUnits_mul_right (Nat.two_pow_pos fmt.scale) _ _ 1, Nat.one_mul]

end Binary

end StackMachine
