import Mathlib
import StackMachine.Proofs.RoundingTwice

/-!
# Rationals close to the middle of two numbers

Rounding through a wider format goes wrong only next to the middle of two neighbours. What is rounded to
that middle in the wider format is very close to it: measured in half gaps, which make the middle an odd
whole number, it is off by no more than a power of two that the two precisions decide.

* **`Format.Refines.rounded_rounded`**: a rational that is rounded to different numbers on the two ways.
* **`Format.neighbours_of_middle`**, **`Format.exists_odd_multiple`**: the middle that it is close to.
* **`Format.Refines.exists_halfway`**: how close it is.
-/

namespace StackMachine

namespace Binary

variable {fmt : Format} {x r : ℚ} {u : Nat}

/-- A rounded rational as a number. It carries what is known of nearest numbers over to rounding.
-/
theorem isNearest_of_rounded (hp : 2 ≤ fmt.precision) (hu : fmt.Representable u) (hx : 0 ≤ x)
    (hround : fmt.rounded x = u) (hr : r * 2 ^ fmt.scale = x) :
    (Binary.finite false u hu).IsNearest r := by
  obtain ⟨num, den, hd, hquot⟩ := Format.exists_quotient hx
  have hunit : (2 : ℚ) ^ fmt.scale ≠ 0 := by positivity
  rw [hquot, Format.rounded_div fmt num hd] at hround
  have hnumber : ofUnits fmt false num den = .finite false u hu := by
    simp only [ofUnits, hround]
    rw [dif_pos hu]
  have hnearest := isNearest_ofUnits hp hd false (by rw [hnumber]; rfl)
  rwa [hnumber, signed_false, Int.cast_natCast, ← hquot, ← hr, mul_div_cancel_right₀ _ hunit]
    at hnearest

theorem quantity_false (hu : fmt.Representable u) :
    (Binary.finite false u hu).quantity = .rational (u / 2 ^ fmt.scale) :=
  rfl

end Binary

namespace Format.Refines

variable {wide fmt : Format} {x : ℚ} {u v d : Nat}

theorem two_pow_scale (h : wide.Refines fmt) :
    (2 : ℚ) ^ wide.scale = 2 ^ (wide.scale - fmt.scale) * 2 ^ fmt.scale := by
  exact_mod_cast h.embeds.two_pow_scale

/-- From one unit to the other: a rational in units of the narrow format, told in those of the
wide one. -/
theorem mul_two_pow_scale (h : wide.Refines fmt) (x : ℚ) :
    x * 2 ^ wide.scale = x * 2 ^ fmt.scale * 2 ^ (wide.scale - fmt.scale) := by
  rw [h.two_pow_scale]
  ring

/-- And back, for numbers that are rounded a second time. -/
theorem mul_div_two_pow_scale (h : wide.Refines fmt) (x : ℚ) :
    x * 2 ^ fmt.scale / 2 ^ wide.scale = x / 2 ^ (wide.scale - fmt.scale) := by
  have hunit : (2 : ℚ) ^ fmt.scale ≠ 0 := by positivity
  rw [h.two_pow_scale, mul_div_mul_right _ _ hunit]

/-- What is no larger than a number of the narrow format can be rounded to the wide format and
from there to the narrow one, without leaving either. The numbers on the way are given names here.
-/
theorem exists_rounded (h : wide.Refines fmt) (hp : 0 < fmt.precision) (hx : 0 ≤ x)
    (hu : fmt.Representable u) (hle : x ≤ u) :
    ∃ d v, wide.Representable d ∧ d ≤ u * 2 ^ (wide.scale - fmt.scale) ∧ fmt.Representable v
      ∧ wide.rounded (x * 2 ^ (wide.scale - fmt.scale)) = d
      ∧ fmt.rounded (d / 2 ^ (wide.scale - fmt.scale)) = v := by
  have hprecision := h.precision
  have hfactor : (0 : ℚ) < 2 ^ (wide.scale - fmt.scale) := by positivity
  have hwide := h.embeds.representable hu
  -- neither rounding goes above a number of the narrow format
  have hd : wide.rounded (x * 2 ^ (wide.scale - fmt.scale)) ≤ u * 2 ^ (wide.scale - fmt.scale) := by
    apply rounded_le (spacing_dvd hwide) (mul_nonneg hx hfactor.le)
    push_cast
    exact mul_le_mul_of_nonneg_right hle hfactor.le
  have hv : fmt.rounded (wide.rounded (x * 2 ^ (wide.scale - fmt.scale)) / 2 ^ (wide.scale - fmt.scale))
      ≤ u := by
    apply rounded_le (spacing_dvd hu) (by positivity)
    rw [div_le_iff₀ hfactor]
    exact_mod_cast hd
  refine ⟨_, _, ⟨lt_of_le_of_lt hd hwide.1, ?_⟩, hd, ⟨lt_of_le_of_lt hv hu.1, ?_⟩, rfl, rfl⟩
  · exact Nat.mod_eq_zero_of_dvd (spaced_rounded (by omega) _)
  · exact Nat.mod_eq_zero_of_dvd (spaced_rounded hp _)

/-- **A rational that is rounded to different numbers on the two ways.** The number of the wider format
lies halfway between them, and it is not the rational itself. -/
theorem rounded_rounded (h : wide.Refines fmt) (hp : 2 ≤ fmt.precision) (hx : 0 ≤ x)
    (hu : fmt.Representable u) (hd : wide.Representable d) (hv : fmt.Representable v)
    (hxu : fmt.rounded x = u) (hxd : wide.rounded (x * 2 ^ (wide.scale - fmt.scale)) = d)
    (hdv : fmt.rounded (d / 2 ^ (wide.scale - fmt.scale)) = v) (hne : v ≠ u) :
    2 * ((d : ℚ) / 2 ^ (wide.scale - fmt.scale)) = v + u
      ∧ x ≠ d / 2 ^ (wide.scale - fmt.scale) ∧ Even (fmt.significand v) := by
  have hprecision := h.precision
  have hscale := h.two_pow_scale
  have hfactor : (0 : ℚ) < 2 ^ (wide.scale - fmt.scale) := by positivity
  have hunit : (0 : ℚ) < 2 ^ fmt.scale := by positivity
  -- both ways, as numbers that are nearest to rationals
  have hright : (Binary.finite false u hu).IsNearest (x / 2 ^ fmt.scale) :=
    Binary.isNearest_of_rounded hp hu hx hxu (div_mul_cancel₀ x hunit.ne')
  have hmiddle : (Binary.finite false d hd).IsNearest (x / 2 ^ fmt.scale) := by
    apply Binary.isNearest_of_rounded (by omega) hd (by positivity) hxd
    rw [hscale]
    field_simp
  have hwrong : (Binary.finite false v hv).IsNearest (d / 2 ^ wide.scale) := by
    apply Binary.isNearest_of_rounded hp hv (by positivity) hdv
    rw [hscale]
    field_simp
  have hne' : (u : ℚ) / 2 ^ fmt.scale ≠ v / 2 ^ fmt.scale := by
    intro heq
    rw [div_left_inj' hunit.ne'] at heq
    exact hne (by exact_mod_cast heq.symm)
  have hmissed : ¬(Binary.finite false v hv).IsNearest (x / 2 ^ fmt.scale) := by
    intro hnearest
    have hsame := hright.unique (by omega) hnearest
    exact hne' (Quantity.rational.inj hsame)
  obtain ⟨z, ⟨d', a, b, c, hd', hdc, ha, hb, hsum, hside⟩, heven, hz⟩ :=
    Binary.exists_misroundedVia h (by omega) hmiddle (Binary.quantity_false hd) hwrong
      (Binary.quantity_false hv) (Binary.quantity_false hu)
      (hright.better (Binary.quantity_false hu) hmissed (Binary.quantity_false hv) hne')
  have hc : (d : ℚ) / 2 ^ wide.scale = c :=
    Quantity.rational.inj ((hmiddle.unique (by omega) hd').trans hdc)
  have ha' : (v : ℚ) / 2 ^ fmt.scale = a := Quantity.rational.inj ha
  have hb' : (u : ℚ) / 2 ^ fmt.scale = b := Quantity.rational.inj ((hz hright).symm.trans hb)
  rw [← hc, ← ha', ← hb', hscale] at hsum
  refine ⟨?_, ?_, heven⟩
  · field_simp at hsum ⊢
    linarith
  · intro hxd'
    rw [← hc, hxd', div_div, ← hscale, sub_self, zero_mul] at hside
    exact lt_irrefl _ hside

end Format.Refines

namespace Format

variable {wide fmt : Format} {x : ℚ} {u v w d : Nat}

/-! ## The middle of two numbers -/

/-- Nothing lies between a number and another one that is halfway across the rational. A number in
between would be nearer to the rational than the one it is rounded to. -/
theorem not_between_of_middle (hp : 2 ≤ fmt.precision) (hx : 0 ≤ x) (hv : fmt.rounded x = v)
    (hmiddle : 2 * x = v + u) (hw : fmt.Spaced w) : ¬(u < w ∧ w < v) ∧ ¬(v < w ∧ w < u) := by
  have hnear := (rounded_nearest hp hx hw).1
  rw [hv] at hnear
  have htie : |x - v| = |x - u| := by
    rw [abs_eq_abs]
    right
    linarith
  constructor
  · rintro ⟨hlow, hhigh⟩
    have hlt := Binary.abs_sub_lt_of_between htie.symm (Nat.cast_lt.mpr hlow) (Nat.cast_lt.mpr hhigh)
    rw [htie] at hnear
    exact absurd hnear hlt.not_ge
  · rintro ⟨hlow, hhigh⟩
    have hlt := Binary.abs_sub_lt_of_between htie (Nat.cast_lt.mpr hlow) (Nat.cast_lt.mpr hhigh)
    exact absurd hnear hlt.not_ge

/-- The two numbers on the sides of a middle are neighbours, and one of them has an even
significand. So the other has an odd one, and rounding to even takes the middle away from it. -/
theorem neighbours_of_middle (hp : 2 ≤ fmt.precision) (hx : 0 ≤ x) (hu : fmt.Representable u)
    (hv : fmt.Representable v) (hround : fmt.rounded x = v) (hmiddle : 2 * x = v + u) (hne : v ≠ u)
    (heven : Even (fmt.significand v)) :
    Odd (fmt.significand u) ∧ (v = u + fmt.spacing u ∨ v + fmt.spacing u = u) := by
  have hnone (w : Nat) (hw : fmt.Spaced w) := not_between_of_middle hp hx hround hmiddle hw
  have hgap := spacing_pos fmt u
  have hodd : Odd (fmt.significand u) := by
    -- with two even significands there would be a number in between
    by_contra hueven
    rw [Nat.not_odd_iff_even] at hueven
    rcases Nat.lt_or_gt_of_ne hne with hlt | hgt
    · obtain ⟨w, hw, hlow, hhigh⟩ := exists_between (by omega) hv hu hlt heven hueven
      exact (hnone w (spacing_dvd hw)).2 ⟨hlow, hhigh⟩
    · obtain ⟨w, hw, hlow, hhigh⟩ := exists_between (by omega) hu hv hgt hueven heven
      exact (hnone w (spacing_dvd hw)).1 ⟨hlow, hhigh⟩
  refine ⟨hodd, ?_⟩
  -- they are a gap apart at least, and a number a gap away would lie in between otherwise
  rcases gap_of_odd hp (spacing_dvd hu) hodd (spacing_dvd hv) hne with hlow | hhigh
  · right
    have hbetween := (hnone _ (spaced_sub (spacing_dvd hu))).2
    omega
  · left
    have hbetween := (hnone _ (spaced_next (by omega) (spacing_dvd hu))).1
    omega

/-- The middle is an odd multiple of half the gap, in terms of the number with the odd
significand. This is the form in which the middles of floats are searched. -/
theorem exists_odd_multiple (hu : fmt.Spaced u) (hpos : 0 < fmt.significand u) (hmiddle : 2 * x = v + u)
    (hneighbours : v = u + fmt.spacing u ∨ v + fmt.spacing u = u) :
    ∃ m : Nat, (m = 2 * fmt.significand u + 1 ∨ m + 1 = 2 * fmt.significand u)
      ∧ m < 2 ^ (fmt.precision + 1) ∧ x = m * (fmt.spacing u / 2) := by
  have hmul : (fmt.significand u : ℚ) * fmt.spacing u = u := by exact_mod_cast significand_mul hu
  have hlt := significand_lt fmt u
  rcases hneighbours with habove | hbelow
  · refine ⟨2 * fmt.significand u + 1, .inl rfl, by rw [pow_succ]; omega, ?_⟩
    rw [habove, Nat.cast_add] at hmiddle
    push_cast
    linarith
  · have hbelow' : (v : ℚ) + fmt.spacing u = u := by exact_mod_cast hbelow
    refine ⟨2 * fmt.significand u - 1, .inr (by omega), by rw [pow_succ]; omega, ?_⟩
    rw [Nat.cast_sub (by omega)]
    push_cast
    linarith

/-- The gap at a middle in a wider format is smaller by all the digits that the wider format has
in addition. So a rational that is rounded to the middle is that close to it. -/
theorem spacing_middle {m s k : Nat} (hp : 0 < fmt.precision) (hm : m < 2 ^ (fmt.precision + 1))
    (hd : 2 * d = m * 2 ^ (s + k)) (hk : wide.precision - fmt.precision ≤ k)
    (hwide : fmt.precision ≤ wide.precision) :
    wide.spacing d * 2 ^ (wide.precision - fmt.precision) ≤ 2 ^ (s + k) := by
  have hlt : d < 2 ^ (fmt.precision + (s + k)) := by
    have h := Nat.mul_lt_mul_of_pos_right hm (Nat.two_pow_pos (s + k))
    rw [← hd, pow_succ, Nat.mul_right_comm, ← pow_add] at h
    omega
  have hlog : d.log2 < fmt.precision + (s + k) := by
    rcases Nat.eq_zero_or_pos d with rfl | hpos
    · exact Nat.add_pos_left hp _
    · exact (Nat.log2_lt hpos.ne').mpr hlt
  rw [spacing_eq, ← pow_add]
  exact Nat.pow_le_pow_right Nat.two_pos (by omega)

end Format

namespace Format.Refines

variable {wide fmt : Format} {x : ℚ} {u v d : Nat}

/-- **How close to the middle a rational is** that is rounded to different numbers on the two ways. The
middle is an odd multiple of half a gap. -/
theorem exists_halfway (h : wide.Refines fmt) (hp : 2 ≤ fmt.precision) (hx : 0 ≤ x)
    (hscale : wide.precision - fmt.precision ≤ wide.scale - fmt.scale)
    (hu : fmt.Representable u) (hd : wide.Representable d) (hv : fmt.Representable v)
    (hxu : fmt.rounded x = u) (hxd : wide.rounded (x * 2 ^ (wide.scale - fmt.scale)) = d)
    (hdv : fmt.rounded (d / 2 ^ (wide.scale - fmt.scale)) = v) (hne : v ≠ u) :
    Odd (fmt.significand u) ∧ ∃ m : Nat, (m = 2 * fmt.significand u + 1 ∨ m + 1 = 2 * fmt.significand u)
      ∧ x ≠ m * (fmt.spacing u / 2)
      ∧ |x - m * (fmt.spacing u / 2)| * 2 ^ (wide.precision - fmt.precision) ≤ fmt.spacing u / 2 := by
  obtain ⟨hmiddle, hxne, heven⟩ := h.rounded_rounded hp hx hu hd hv hxu hxd hdv hne
  obtain ⟨hodd, hneighbours⟩ :=
    neighbours_of_middle hp (by positivity) hu hv hdv hmiddle hne heven
  obtain ⟨m, hm, hm', hdm⟩ := exists_odd_multiple (spacing_dvd hu) hodd.pos hmiddle hneighbours
  refine ⟨hodd, m, hm, by rwa [← hdm], ?_⟩
  have hfactor : (0 : ℚ) < 2 ^ (wide.scale - fmt.scale) := by positivity
  -- the middle in units of the wider format
  have hdouble : 2 * d = m * 2 ^ (u.log2 + 1 - fmt.precision + (wide.scale - fmt.scale)) := by
    rw [pow_add, ← spacing_eq]
    rw [div_eq_iff hfactor.ne'] at hdm
    have hdm' : (2 : ℚ) * d = m * (fmt.spacing u * 2 ^ (wide.scale - fmt.scale)) := by
      rw [hdm]
      ring
    exact_mod_cast hdm'
  -- the wider format is finer there by its additional digits
  have hgap : (wide.spacing d : ℚ) * 2 ^ (wide.precision - fmt.precision)
      ≤ fmt.spacing u * 2 ^ (wide.scale - fmt.scale) := by
    have hmiddle := spacing_middle (by omega) hm' hdouble hscale h.precision.le
    rw [pow_add, ← spacing_eq] at hmiddle
    exact_mod_cast hmiddle
  -- and the rational is within half of that gap
  have hnear := rounded_near (hp.trans h.precision.le) (mul_nonneg hx hfactor.le)
  rw [hxd] at hnear
  rw [← hdm]
  calc |x - d / 2 ^ (wide.scale - fmt.scale)| * 2 ^ (wide.precision - fmt.precision)
      = |x * 2 ^ (wide.scale - fmt.scale) - d| * 2 ^ (wide.precision - fmt.precision)
        / 2 ^ (wide.scale - fmt.scale) := by
        rw [eq_div_iff hfactor.ne', mul_right_comm, ← abs_of_pos hfactor, ← abs_mul, abs_of_pos hfactor,
          sub_mul, div_mul_cancel₀ _ hfactor.ne']
    _ ≤ wide.spacing d / 2 * 2 ^ (wide.precision - fmt.precision) / 2 ^ (wide.scale - fmt.scale) := by
        gcongr
    _ ≤ fmt.spacing u / 2 := by
        rw [div_le_iff₀ hfactor]
        linarith

end Format.Refines

end StackMachine
