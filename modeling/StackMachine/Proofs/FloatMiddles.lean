import Mathlib
import StackMachine.Proofs.CloseMultiples
import StackMachine.Proofs.ShortestDecimals

/-!
# Shortest decimals of floats near the middle of two floats

The shortest decimal of a float may be close to the middle between the float and a neighbour. Measured in
half gaps, the middle is an odd number below `2 ^ 25`, and the decimal is a multiple of a power of ten. For
each place of the leading digit and each gap that goes with it, Euclid's algorithm tells how close such
multiples come to whole numbers. There is one float whose shortest decimal is so close to a middle that a
double cannot tell the two apart.

* **`Binary.IsClear`**, **`Binary.IsClear.eq_exception`**: multiples of a power of ten stay away from
  middles.
* **`Binary.areClear_leading`**: they do on all grids that shortest decimals are found on.
* **`Binary.eq_of_near_middle`**: the one float.
-/

namespace StackMachine.Binary

variable {u m c s limit : Nat} {e l : Int}

/-! ## Half gaps -/

/-- A float of `u` units is `2 ^ gapExponent u` away from the next one. -/
def gapExponent (u : Nat) : Nat :=
  u.log2 + 1 - 24

/-- The gaps of floats are powers of two, whose exponents are what the tables below go through. -/
theorem spacing_single (u : Nat) : Format.single.spacing u = 2 ^ gapExponent u :=
  rfl

theorem gapExponent_mono {v : Nat} (h : u ≤ v) : gapExponent u ≤ gapExponent v := by
  have hlog : u.log2 ≤ v.log2 := by
    rw [Nat.log2_eq_log_two, Nat.log2_eq_log_two]
    exact Nat.log_mono_right h
  unfold gapExponent
  omega

/-- A power of ten counted in halves of a gap, as a quotient. -/
def halfGaps (e : Int) (s : Nat) : Nat × Nat :=
  scaleByTen (Nat.pow 2 150) (Nat.pow 2 s) e

theorem halfGaps_pos (e : Int) (s : Nat) : 0 < (halfGaps e s).1 ∧ 0 < (halfGaps e s).2 := by
  refine ⟨?_, scaleByTen_pos _ (Nat.two_pow_pos s).ne' e⟩
  unfold halfGaps scaleByTen
  split
  · exact Nat.mul_pos (Nat.two_pow_pos 150) (Nat.pow_pos (by decide))
  · exact Nat.two_pow_pos 150

/-- The quotient is the power of ten in units, counted in half gaps. -/
theorem halfGaps_eq (e : Int) (s : Nat) :
    ((halfGaps e s).1 : ℚ) / (halfGaps e s).2 * (2 ^ s / 2) = 10 ^ e * 2 ^ 149 := by
  have hdouble : (2 : ℚ) ^ 150 = 2 ^ 149 * 2 := pow_succ 2 149
  rw [halfGaps, scaleByTen_eq, Nat.pow_eq, Nat.pow_eq, Nat.cast_pow, Nat.cast_pow, Nat.cast_ofNat, hdouble]
  field_simp

/-- The middle that one shortest decimal comes too close to. -/
def exceptionalMiddle (e : Int) (s : Nat) : Nat :=
  if s = 42 ∧ e = -32 then 22841339 else 0

/-- The factors for which a multiple of a power of ten stays below `2 ^ 25` half gaps. -/
def factors (e : Int) (s limit : Nat) : Nat :=
  min limit (Nat.pow 2 25 * (halfGaps e s).2 / (halfGaps e s).1)

/-- Multiples of a power of ten stay away from middles. -/
def IsClear (e : Int) (s limit : Nat) : Prop :=
  ((Enclosure.whole (halfGaps e s).1 (halfGaps_pos e s).2).narrow (factors e s limit) 16).Separates
    (Nat.pow 2 29) (factors e s limit) (exceptionalMiddle e s)

instance (e : Int) (s limit : Nat) : Decidable (IsClear e s limit) :=
  inferInstanceAs (Decidable (Enclosure.Separates _ _ _ _))

/-- **A multiple that is close to a middle** but not equal to it is close to the exceptional one.
`IsClear` runs Euclid's algorithm on one quotient, and `Separates.far` says what that proves. -/
theorem IsClear.eq_exception (h : IsClear e s limit) (hc : c ≤ limit) (hm : 0 < m) (hm' : m < 2 ^ 25)
    (hne : (c : ℚ) * 10 ^ e * 2 ^ 149 ≠ m * (2 ^ s / 2))
    (hnear : |(c : ℚ) * 10 ^ e * 2 ^ 149 - m * (2 ^ s / 2)| * 2 ^ 29 ≤ 2 ^ s / 2) :
    s = 42 ∧ m = 22841339 := by
  obtain ⟨hP, hQ⟩ := halfGaps_pos e s
  have hQ' : (0 : ℚ) < (halfGaps e s).2 := by exact_mod_cast hQ
  have hgap : (0 : ℚ) < 2 ^ s / 2 := by positivity
  -- all distances in half gaps, without the denominator
  have hscaled : (c : ℚ) * 10 ^ e * 2 ^ 149 - m * (2 ^ s / 2)
      = (c * (halfGaps e s).1 - m * (halfGaps e s).2 : ℤ) / (halfGaps e s).2 * (2 ^ s / 2) := by
    rw [mul_assoc, ← halfGaps_eq e s]
    push_cast
    field_simp
  have hne' : c * (halfGaps e s).1 ≠ m * (halfGaps e s).2 := by
    intro heq
    apply hne
    rw [← sub_eq_zero, hscaled, show (c * (halfGaps e s).1 - m * (halfGaps e s).2 : ℤ) = 0 by
      rw [sub_eq_zero]; exact_mod_cast heq]
    simp
  have hnear' : |(c * (halfGaps e s).1 - m * (halfGaps e s).2 : ℤ)| * 2 ^ 29 ≤ (halfGaps e s).2 := by
    rw [hscaled, abs_mul, abs_div, abs_of_pos hQ', abs_of_pos hgap, mul_right_comm,
      mul_le_iff_le_one_left hgap, div_mul_eq_mul_div, div_le_one hQ'] at hnear
    exact_mod_cast hnear
  have hsmall : |(c * (halfGaps e s).1 - m * (halfGaps e s).2 : ℤ)| ≤ (halfGaps e s).2 := by
    have := abs_nonneg (c * (halfGaps e s).1 - m * (halfGaps e s).2 : ℤ)
    omega
  have hpos : 0 < c := by
    apply Nat.pos_of_ne_zero
    rintro rfl
    have hone : ((halfGaps e s).2 : ℤ) ≤ m * (halfGaps e s).2 :=
      le_mul_of_one_le_left (by omega) (by omega)
    rw [Nat.cast_zero, zero_mul, zero_sub, abs_neg, abs_of_nonneg (by omega)] at hnear'
    omega
  have hfactor : c ≤ factors e s limit := by
    apply le_min hc
    rw [Nat.le_div_iff_mul_le hP]
    have hle := (le_abs_self _).trans hsmall
    have hbound := Nat.mul_le_mul_right (halfGaps e s).2 (Nat.succ_le_of_lt hm')
    rw [Nat.succ_mul] at hbound
    rw [Nat.pow_eq]
    zify at hbound ⊢
    linarith
  rcases h.far hpos hfactor hne' with hexception | hfar
  · unfold exceptionalMiddle at hexception
    split at hexception
    · next hplace => exact ⟨hplace.1, hexception⟩
    · omega
  · exact absurd hnear' (not_le.mpr (by exact_mod_cast hfar))

/-! ## The grids of shortest decimals -/

/-- The units in a power of ten, rounded down. -/
def powerUnits (l : Int) : Nat :=
  (scaleByTen (Nat.pow 2 149) 1 l).1 / (scaleByTen (Nat.pow 2 149) 1 l).2

theorem quotient_powerUnits (l : Int) :
    ((scaleByTen (Nat.pow 2 149) 1 l).1 : ℚ) / (scaleByTen (Nat.pow 2 149) 1 l).2 = 10 ^ l * 2 ^ 149 := by
  rw [scaleByTen_eq, Nat.pow_eq, Nat.cast_pow, Nat.cast_ofNat, Nat.cast_one, div_one, mul_comm]

/-- A float that reaches a power of ten reaches its whole units. -/
theorem powerUnits_le (h : (10 : ℚ) ^ l * 2 ^ 149 ≤ u) : powerUnits l ≤ u := by
  rw [← quotient_powerUnits] at h
  have hle : (powerUnits l : ℚ) ≤ u := Nat.cast_div_le.trans h
  exact_mod_cast hle

theorem le_powerUnits (h : (u : ℚ) ≤ 10 ^ l * 2 ^ 149) : u ≤ powerUnits l := by
  have hden := scaleByTen_pos (Nat.pow 2 149) one_ne_zero l
  have hden' : (0 : ℚ) < (scaleByTen (Nat.pow 2 149) 1 l).2 := by exact_mod_cast hden
  rw [← quotient_powerUnits, le_div_iff₀ hden'] at h
  rw [powerUnits, Nat.le_div_iff_mul_le hden]
  exact_mod_cast h

/-- Seven digits with the leading one at `10 ^ l` stay away from middles. So do eight digits if the last
one counts for a gap or more, which it has to if seven digits are not enough. -/
def AreClear (l : Int) (s : Nat) : Prop :=
  IsClear (l - 6) s (Nat.pow 10 7)
    ∧ ((halfGaps (l - 7) s).1 * Nat.pow 2 28 < (halfGaps (l - 7) s).2 * (Nat.pow 2 29 - 1)
      ∨ IsClear (l - 7) s (Nat.pow 10 8))

instance (l : Int) (s : Nat) : Decidable (AreClear l s) :=
  inferInstanceAs (Decidable (_ ∧ _))

/-- The gaps of the floats with the leading digit at `10 ^ l`. -/
def gapExponents (l : Int) : List Nat :=
  List.range' (gapExponent (powerUnits l)) (gapExponent (powerUnits (l + 1)) + 1 - gapExponent (powerUnits l))

/-- All grids are tried: every place of a leading digit that floats have, with every gap that
floats of this size have. It is the only computation, and each case of it is a run of Euclid's
algorithm. -/
theorem areClear_all :
    ((List.range 84).all fun i => (gapExponents (i - 45)).all fun s => decide (AreClear (i - 45) s)) = true := by
  decide +kernel

/-- The place of the leading digit of a float, as bounds on its units. -/
theorem leading_bounds (hpos : 0 < u) :
    (10 : ℚ) ^ leadingExponent u (2 ^ 149) * 2 ^ 149 ≤ u
      ∧ (u : ℚ) < 10 ^ (leadingExponent u (2 ^ 149) + 1) * 2 ^ 149 := by
  have hunit : (0 : ℚ) < 2 ^ 149 := by positivity
  have hpos' : (0 : ℚ) < u / (2 ^ 149 : Nat) := by positivity
  have hlow := Int.zpow_log_le_self (by decide : 1 < 10) hpos'
  have hhigh := Int.lt_zpow_succ_log_self (by decide : 1 < 10) ((u : ℚ) / (2 ^ 149 : Nat))
  rw [← leadingExponent_eq_log hpos.ne' (Nat.two_pow_pos 149).ne', Nat.cast_pow, Nat.cast_ofNat,
    Nat.cast_ofNat] at hlow hhigh
  exact ⟨(le_div_iff₀ hunit).mp hlow, (div_lt_iff₀ hunit).mp hhigh⟩

/-- **Multiples stay away from middles on all grids** that shortest decimals of floats are found
on. The place and the gap of a float are among those of the table. -/
theorem areClear_leading (hpos : 0 < u) (hu : u < 2 ^ 128 * 2 ^ 149) :
    AreClear (leadingExponent u (2 ^ 149)) (gapExponent u) := by
  obtain ⟨hlow, hhigh⟩ := leading_bounds hpos
  generalize leadingExponent u (2 ^ 149) = l at *
  -- one unit is above the forty-fifth decimal place
  have hmin : -45 ≤ l := by
    by_contra hlt
    have hone : (1 : ℚ) ≤ u := by exact_mod_cast hpos
    have hten : (10 : ℚ) ^ (l + 1) ≤ 10 ^ (-45 : Int) := zpow_le_zpow_right₀ (by norm_num) (by omega)
    have hsmall : (10 : ℚ) ^ (-45 : Int) * 2 ^ 149 < 1 := by norm_num
    linarith
  -- and the bound is below the thirty-ninth power of ten
  have hmax : l ≤ 38 := by
    by_contra hlt
    have hbound : (u : ℚ) < 2 ^ 128 * 2 ^ 149 := by exact_mod_cast hu
    have hten : (10 : ℚ) ^ (39 : Int) ≤ 10 ^ l := zpow_le_zpow_right₀ (by norm_num) (by omega)
    have hlarge : (2 : ℚ) ^ 128 < 10 ^ (39 : Int) := by norm_num
    linarith
  obtain ⟨i, hi⟩ := Int.eq_ofNat_of_zero_le (by omega : 0 ≤ l + 45)
  -- the gap of the float is between those at the ends of its decade
  have hmem : gapExponent u ∈ gapExponents l := by
    rw [gapExponents, List.mem_range'_1]
    have hfirst := gapExponent_mono (powerUnits_le hlow)
    have hlast := gapExponent_mono (le_powerUnits hhigh.le)
    omega
  have hall := List.all_eq_true.mp areClear_all i (List.mem_range.mpr (by omega))
  rw [show (i : Int) - 45 = l by omega] at hall
  exact of_decide_eq_true (List.all_eq_true.mp hall _ hmem)

/-! ## The one float -/

/-- Half a gap is bridged by half a step of the grid and what is left to the middle, so the steps of the
grid are hardly smaller than the gap. -/
theorem gap_le_step {x step gap : ℚ} {a : Nat} (hm : m = 2 * a + 1 ∨ m + 1 = 2 * a) (hgap : 0 ≤ gap)
    (hgrid : |a * gap - x| ≤ step / 2) (hnear : |x - m * (gap / 2)| * 2 ^ 29 ≤ gap / 2) :
    gap / 2 * (2 ^ 29 - 1) ≤ step * 2 ^ 28 := by
  have hhalf : |a * gap - m * (gap / 2)| = gap / 2 := by
    rcases hm with hm | hm
    · rw [hm, abs_of_nonpos (by push_cast; linarith)]
      push_cast
      ring
    · have hm' : (m : ℚ) = 2 * a - 1 := by
        have : (m : ℚ) + 1 = 2 * a := by exact_mod_cast hm
        linarith
      rw [hm', abs_of_nonneg (by linarith)]
      ring
  have htriangle := abs_sub_le (a * gap) x (m * (gap / 2))
  rw [hhalf] at htriangle
  linarith

/-- Such a grid in half gaps. The inequality between rationals is one between the natural numbers
that the table tests. -/
theorem halfGaps_le_of_step (h : (2 : ℚ) ^ s / 2 * (2 ^ 29 - 1) ≤ 10 ^ e * 2 ^ 149 * 2 ^ 28) :
    (halfGaps e s).2 * (Nat.pow 2 29 - 1) ≤ (halfGaps e s).1 * Nat.pow 2 28 := by
  have hQ : (0 : ℚ) < (halfGaps e s).2 := by exact_mod_cast (halfGaps_pos e s).2
  have hgap : (0 : ℚ) < 2 ^ s / 2 := by positivity
  rw [← halfGaps_eq e s, mul_right_comm, mul_comm ((2 : ℚ) ^ s / 2), mul_le_mul_iff_of_pos_right hgap,
    div_mul_eq_mul_div, le_div_iff₀ hQ] at h
  have h' : ((halfGaps e s).2 : ℚ) * (Nat.pow 2 29 - 1 : Nat) ≤ (halfGaps e s).1 * Nat.pow 2 28 := by
    norm_num at h ⊢
    linarith
  exact_mod_cast h'

/-- **A decimal of up to eight digits that is close to a middle** is equal to it or close to the
exceptional one. Seven digits and eight are different cases, as eight are enough only on some of
the grids. -/
theorem AreClear.eq_exception {j : Nat} (h : AreClear l s) (hj : j ≤ 7) (hc : c ≤ 10 ^ (j + 1)) (hm : 0 < m)
    (hm' : m < 2 ^ 25) (hstep : (2 : ℚ) ^ s / 2 * (2 ^ 29 - 1) ≤ 10 ^ (l - j) * 2 ^ 149 * 2 ^ 28)
    (hne : (c : ℚ) * 10 ^ (l - j) * 2 ^ 149 ≠ m * (2 ^ s / 2))
    (hnear : |(c : ℚ) * 10 ^ (l - j) * 2 ^ 149 - m * (2 ^ s / 2)| * 2 ^ 29 ≤ 2 ^ s / 2) :
    s = 42 ∧ m = 22841339 := by
  obtain ⟨hseven, height⟩ := h
  rcases Nat.eq_or_lt_of_le hj with rfl | hfew
  · -- eight digits: the step is at least a gap, so the second alternative of the table applies
    have hcoarse := halfGaps_le_of_step hstep
    exact (height.resolve_left (not_lt.mpr hcoarse)).eq_exception hc hm hm' hne hnear
  · -- fewer digits are seven with zeros at their end
    have hzeros : (c : ℚ) * 10 ^ (l - j) = (c * 10 ^ (6 - j) : Nat) * 10 ^ (l - 6) := by
      rw [ten_zpow_eq (by omega : l - 6 ≤ l - j), show (l - j - (l - 6)).toNat = 6 - j by omega]
      push_cast
      ring
    have hle : c * 10 ^ (6 - j) ≤ 10 ^ 7 := by
      calc c * 10 ^ (6 - j) ≤ 10 ^ (j + 1) * 10 ^ (6 - j) := Nat.mul_le_mul_right _ hc
        _ = 10 ^ 7 := by
          rw [← pow_add]
          congr 1
          omega
    rw [hzeros] at hne hnear
    exact hseven.eq_exception hle hm hm' hne hnear

/-- Nine digits are much closer to a float than to a middle, so for them nothing has to be tried.
-/
theorem nine_digits_step (hlow : (10 : ℚ) ^ l * 2 ^ 149 ≤ u) (hsmall : (u : ℚ) < 2 ^ 24 * 2 ^ s) :
    (10 : ℚ) ^ (l - (8 : Nat)) * 2 ^ 149 * 2 ^ 28 < 2 ^ s / 2 * (2 ^ 29 - 1) := by
  have hten : (10 : ℚ) ≠ 0 := by norm_num
  rw [zpow_sub₀ hten, zpow_natCast]
  linarith

theorem lt_bound_of_representable {fmt : Format} (h : fmt.Representable u) : u < 2 ^ fmt.bound :=
  h.1

/-- The grids on which the shortest decimal of a float with an odd significand is found: nine digits are
so fine that they always read back. -/
theorem exists_grid (hu : Format.single.Representable u) (hodd : Odd (Format.single.significand u))
    (hpos : 0 < u) :
    ∃ j : Nat, j ≤ 8 ∧ ∃ c : Nat, c ≤ 10 ^ (j + 1)
      ∧ (shortest .single u).units .single = c * 10 ^ (leadingExponent u (2 ^ 149) - j) * 2 ^ 149
      ∧ |u - (shortest .single u).units .single|
        ≤ 10 ^ (leadingExponent u (2 ^ 149) - j) * 2 ^ 149 / 2 := by
  obtain ⟨hlow, hhigh⟩ := leading_bounds hpos
  have hsmall : (u : ℚ) < 2 ^ 24 * Format.single.spacing u := by
    exact_mod_cast Format.lt_mul_spacing .single u
  have hten : (10 : ℚ) ≠ 0 := by norm_num
  -- with nine digits the step is less than a gap, so the search ends there at the latest
  have hfine : (10 : ℚ) ^ (leadingExponent u (2 ^ 149) - (8 : Nat)) * 2 ^ 149
      < Format.single.spacing u := by
    rw [zpow_sub₀ hten, zpow_natCast, div_mul_eq_mul_div, div_lt_iff₀ (by norm_num)]
    linarith
  obtain ⟨j, hj, hshort⟩ :=
    shortest_of_odd (by decide) (Format.spacing_dvd hu) hodd (by decide : 8 < Format.single.precision) hfine
  have hunits : (shortest .single u).units .single
      = nearestDigits .single u (leadingExponent u (2 ^ 149) - j)
        * 10 ^ (leadingExponent u (2 ^ 149) - j) * 2 ^ 149 := by
    rw [hshort]
    rfl
  refine ⟨j, hj, _, ?_, hunits, ?_⟩
  · -- the number is below the power of ten above its leading digit
    apply nearestDigits_le
    calc (u : ℚ) ≤ 10 ^ (leadingExponent u (2 ^ 149) + 1) * 2 ^ 149 := hhigh.le
      _ = (10 ^ (j + 1) : Nat) * (10 ^ (leadingExponent u (2 ^ 149) - j) * 2 ^ 149) := by
        rw [← mul_assoc, Nat.cast_pow, Nat.cast_ofNat, ← zpow_natCast (10 : ℚ), ← zpow_add₀ hten]
        congr 2
        push_cast
        ring
  · have hnear := nearestDigits_near .single u (leadingExponent u (2 ^ 149) - j)
    rw [hunits, mul_assoc]
    exact hnear

/-- **The shortest decimal of a float that is close to a middle** but not equal to it belongs to
the one exceptional float. This is what makes the detour over doubles harmless for all others. -/
theorem eq_of_near_middle (hu : Format.single.Representable u) (hodd : Odd (Format.single.significand u))
    (hm : m = 2 * Format.single.significand u + 1 ∨ m + 1 = 2 * Format.single.significand u)
    (hne : (shortest .single u).units .single ≠ m * (Format.single.spacing u / 2))
    (hnear : |(shortest .single u).units .single - m * (Format.single.spacing u / 2)| * 2 ^ 29
      ≤ Format.single.spacing u / 2) :
    u = 11420669 * 2 ^ 42 := by
  have hmul := Format.significand_mul (Format.spacing_dvd hu)
  have hlt : Format.single.significand u < 2 ^ 24 := Format.significand_lt .single u
  have hsig := hodd.pos
  have hpos : 0 < u := by
    rw [← hmul]
    exact Nat.mul_pos hsig (Format.spacing_pos _ u)
  have hbound : u < 2 ^ 128 * 2 ^ 149 := by
    have h := lt_bound_of_representable hu
    rwa [show Format.single.bound = 128 + 149 from rfl, pow_add] at h
  have hgap : (Format.single.spacing u : ℚ) = 2 ^ gapExponent u := by
    rw [spacing_single]
    push_cast
    rfl
  have hmul' : (Format.single.significand u : ℚ) * 2 ^ gapExponent u = u := by
    rw [← hgap]
    exact_mod_cast hmul
  have hsmall : (u : ℚ) < 2 ^ 24 * 2 ^ gapExponent u := by
    rw [← hmul']
    gcongr
    exact_mod_cast hlt
  obtain ⟨hlow, -⟩ := leading_bounds hpos
  have hclear := areClear_leading hpos hbound
  obtain ⟨j, hj, c, hc, hunits, hgrid⟩ := exists_grid hu hodd hpos
  rw [hgap] at hne hnear
  rw [← hmul'] at hgrid
  have hstep := gap_le_step hm (by positivity) hgrid hnear
  rw [hunits] at hne hnear
  have hfew : j ≤ 7 := by
    by_contra hnine
    rw [show j = 8 by omega] at hstep
    exact absurd hstep (not_le.mpr (nine_digits_step hlow hsmall))
  obtain ⟨hexponent, hmiddle⟩ := hclear.eq_exception hfew hc (by omega) (by omega) hstep hne hnear
  -- of the two floats around that middle, one has an odd significand
  rw [spacing_single, hexponent] at hmul
  rw [hmiddle] at hm
  obtain ⟨k, hk⟩ := hodd
  rw [← hmul, show Format.single.significand u = 11420669 by omega]

end StackMachine.Binary
