import Mathlib
import StackMachine.Proofs.NearestNumbers

/-!
# Neighbouring numbers of a format

The next number above one of a format is a gap away, and none lies in between. Rounding crosses no number
from either side and misses a quotient by half a gap at most. A number with an odd significand has the
same gap below it as above, so what is rounded to it is what is less than half a gap away.

* **`Format.next_le`**, **`Format.spaced_next`**, **`Format.exists_prev`**: the numbers next to one.
* **`Format.rounded`**, **`Format.rounded_div`**: rounding depends on the rational only.
* **`Format.rounded_le`**, **`Format.le_rounded`**, **`Format.rounded_near`**: where it is rounded to.
* **`Format.gap_of_odd`**, **`Format.rounded_eq_iff_of_odd`**: odd significands.
-/

namespace StackMachine

/-! ## The middle of two numbers -/

section

variable {x a b : ℚ}

/-- Of two numbers the lower one is as near just when the rational is not above their middle. -/
theorem abs_sub_le_iff_le_middle (h : a < b) : |x - a| ≤ |x - b| ↔ 2 * x ≤ a + b := by
  rw [← sq_le_sq]
  constructor
  · intro hle
    by_contra hlt
    nlinarith
  · intro hle
    nlinarith

theorem abs_sub_le_iff_middle_le (h : a < b) : |x - b| ≤ |x - a| ↔ a + b ≤ 2 * x := by
  rw [← sq_le_sq]
  constructor
  · intro hle
    by_contra hlt
    nlinarith
  · intro hle
    nlinarith

end

namespace Format

variable {fmt : Format} {u v w num den : Nat} {x : ℚ}

/-! ## The next number and the one before -/

/-- Multiples of a gap are a gap apart, if they are different. -/
theorem add_le_of_dvd {gap a b : Nat} (ha : gap ∣ a) (hb : gap ∣ b) (h : a < b) : a + gap ≤ b :=
  Nat.le_of_lt_add_of_dvd (Nat.add_lt_add_right h gap) (Nat.dvd_add ha (Nat.dvd_refl gap)) hb

/-- Nothing lies between a number and the next one. A larger number has gaps that are multiples of
this one. -/
theorem next_le (hu : fmt.Spaced u) (hw : fmt.Spaced w) (h : u < w) : u + fmt.spacing u ≤ w :=
  add_le_of_dvd hu ((spacing_dvd_spacing h.le).trans hw) h

theorem significand_mul (hu : fmt.Spaced u) : fmt.significand u * fmt.spacing u = u :=
  Nat.div_mul_cancel hu

theorem significand_lt (fmt : Format) (u : Nat) : fmt.significand u < 2 ^ fmt.precision :=
  Nat.div_lt_of_lt_mul (by rw [Nat.mul_comm]; exact lt_mul_spacing fmt u)

theorem spaced_two_pow (hp : 0 < fmt.precision) (k : Nat) : fmt.Spaced (2 ^ k) := by
  have h := spaced_of_mul (Nat.one_lt_two_pow hp.ne') k
  rwa [Nat.one_mul] at h

/-- A gap above a number is another one. If the significand was full, the next number is a power
of two. -/
theorem spaced_next (hp : 0 < fmt.precision) (hu : fmt.Spaced u) : fmt.Spaced (u + fmt.spacing u) := by
  have hnext : u + fmt.spacing u = (fmt.significand u + 1) * 2 ^ (u.log2 + 1 - fmt.precision) := by
    rw [Nat.add_mul, ← spacing_eq, significand_mul hu, Nat.one_mul]
  rw [hnext]
  rcases Nat.lt_or_eq_of_le (Nat.succ_le_of_lt (significand_lt fmt u)) with hlt | hcarry
  · exact spaced_of_mul hlt _
  · -- all digits of the significand were ones
    rw [show fmt.significand u + 1 = 2 ^ fmt.precision from hcarry, ← pow_add]
    exact spaced_two_pow hp _

/-- A gap of its own below a number is another one, though not always the one before: below a
power of two the gaps are narrower. -/
theorem spaced_sub (hu : fmt.Spaced u) : fmt.Spaced (u - fmt.spacing u) := by
  have hsub : u - fmt.spacing u = (fmt.significand u - 1) * 2 ^ (u.log2 + 1 - fmt.precision) := by
    rw [Nat.sub_mul, ← spacing_eq, significand_mul hu, Nat.one_mul]
  rw [hsub]
  exact spaced_of_mul (Nat.lt_of_le_of_lt (Nat.sub_le _ 1) (significand_lt fmt u)) _

/-- Every number but zero is the next one of another, which may have a narrower gap. -/
theorem exists_prev (hp : 0 < fmt.precision) (hu : fmt.Spaced u) (hpos : 0 < u) :
    ∃ w, fmt.Spaced w ∧ w + fmt.spacing w = u := by
  classical
  -- the largest number below
  have hzero : fmt.Spaced 0 ∧ 0 < u := ⟨spacing_dvd fmt.representable_zero, hpos⟩
  obtain ⟨hw, hwu⟩ := Nat.findGreatest_spec (P := fun w => fmt.Spaced w ∧ w < u) (Nat.zero_le u) hzero
  refine ⟨_, hw, le_antisymm (next_le hw hu hwu) ?_⟩
  by_contra hlt
  have hgap := spacing_pos fmt (Nat.findGreatest (fun w => fmt.Spaced w ∧ w < u) u)
  have hle := Nat.le_findGreatest (P := fun w => fmt.Spaced w ∧ w < u) (Nat.le_of_not_le hlt)
    ⟨spaced_next hp hw, Nat.lt_of_not_le hlt⟩
  omega

/-! ## Rounding and numbers of the format -/

/-- **No number of the format is crossed from below.** If the number is on the grid of the
quotient, this is rounding to whole gaps; if it is below, there is a multiple of the gap in
between. -/
theorem le_nearest (hp : 0 < fmt.precision) (h : fmt.Spaced u) (hd : 0 < den) (hle : u * den ≤ num) :
    u ≤ fmt.nearest num den := by
  have hgap : 0 < fmt.spacing (num / den) := spacing_pos fmt _
  have hfloor : num / den * den ≤ num := Nat.div_mul_le_self num den
  -- every multiple of the gap below the quotient is a lower bound
  have hmultiple (k : Nat) (hk : k * fmt.spacing (num / den) * den ≤ num) :
      k * fmt.spacing (num / den) ≤ fmt.nearest num den := by
    apply Nat.mul_le_mul_right
    apply le_roundDiv (Nat.mul_pos hd hgap)
    calc k * (den * fmt.spacing (num / den)) = k * fmt.spacing (num / den) * den := by ring
      _ ≤ num := hk
  by_cases hdvd : fmt.spacing (num / den) ∣ u
  · obtain ⟨k, hk⟩ := hdvd
    rw [Nat.mul_comm] at hk
    rw [hk] at hle ⊢
    exact hmultiple k hle
  · obtain ⟨k, hlow, hhigh⟩ := exists_gap_between hp h hdvd
    have hk := hmultiple k ((Nat.mul_le_mul_right den hhigh).trans hfloor)
    omega

/-- The number of units that a rational is rounded to; it has to be positive or zero. -/
def rounded (fmt : Format) (x : ℚ) : Nat :=
  fmt.nearest x.num.toNat x.den

theorem cast_toNat_num (hx : 0 ≤ x) : (x.num.toNat : ℚ) = x.num := by
  rw [← Int.cast_natCast, Int.toNat_of_nonneg (Rat.num_nonneg.mpr hx)]

theorem exists_quotient (hx : 0 ≤ x) : ∃ num den : Nat, 0 < den ∧ x = num / den :=
  ⟨x.num.toNat, x.den, x.den_pos, by rw [cast_toNat_num hx, Rat.num_div_den]⟩

/-- **Rounding depends on the quotient only**, so it can be told of rationals. The numerator and
the denominator of the rational are those in lowest terms. -/
theorem rounded_div (fmt : Format) (num : Nat) (hd : 0 < den) :
    fmt.rounded (num / den) = fmt.nearest num den := by
  have hden : (den : ℚ) ≠ 0 := by exact_mod_cast hd.ne'
  generalize hx : (num : ℚ) / den = x
  have hnonneg : 0 ≤ x := by rw [← hx]; positivity
  have hcross : x.num.toNat * den = num * x.den := by
    have hxden : (x.den : ℚ) ≠ 0 := by exact_mod_cast x.den_pos.ne'
    have hquot : (x.num : ℚ) / x.den = num / den := by rw [Rat.num_div_den, hx]
    rw [div_eq_div_iff hxden hden, ← cast_toNat_num hnonneg] at hquot
    exact_mod_cast hquot
  rw [rounded, ← nearest_mul_right hd, hcross, Nat.mul_comm x.den, nearest_mul_right x.den_pos]

theorem spaced_rounded (hp : 0 < fmt.precision) (x : ℚ) : fmt.Spaced (fmt.rounded x) :=
  spaced_nearest hp _ x.den_pos

/-- Rounding does not go above a number of the format that the rational does not exceed. -/
theorem rounded_le (hu : fmt.Spaced u) (hx : 0 ≤ x) (h : x ≤ u) : fmt.rounded x ≤ u := by
  obtain ⟨num, den, hd, rfl⟩ := exists_quotient hx
  rw [rounded_div fmt num hd]
  apply nearest_le hu hd
  have hden : (0 : ℚ) < den := by exact_mod_cast hd
  rw [div_le_iff₀ hden] at h
  exact_mod_cast h

/-- Nor below one that it reaches. -/
theorem le_rounded (hp : 0 < fmt.precision) (hu : fmt.Spaced u) (h : (u : ℚ) ≤ x) : u ≤ fmt.rounded x := by
  obtain ⟨num, den, hd, rfl⟩ := exists_quotient ((Nat.cast_nonneg u).trans h)
  rw [rounded_div fmt num hd]
  apply le_nearest hp hu hd
  have hden : (0 : ℚ) < den := by exact_mod_cast hd
  rw [le_div_iff₀ hden] at h
  exact_mod_cast h

theorem rounded_self (hp : 0 < fmt.precision) (hu : fmt.Spaced u) : fmt.rounded u = u :=
  le_antisymm (rounded_le hu (Nat.cast_nonneg u) le_rfl) (le_rounded hp hu le_rfl)

/-- A rational is rounded to the nearest number, and where another one is as near, to an even
significand. It is `nearest_nearest`, told of rationals. -/
theorem rounded_nearest (hp : 2 ≤ fmt.precision) (hx : 0 ≤ x) (hv : fmt.Spaced v) :
    |x - fmt.rounded x| ≤ |x - v|
      ∧ (|x - fmt.rounded x| = |x - v| → v ≠ fmt.rounded x →
          Even (fmt.significand (fmt.rounded x))) := by
  obtain ⟨num, den, hd, rfl⟩ := exists_quotient hx
  rw [rounded_div fmt num hd]
  exact nearest_nearest num hp hd hv

/-- **A rational is missed by half a gap at most.** The gap is that of the number it is rounded
to: a number that far on the other side would be nearer otherwise. -/
theorem rounded_near (hp : 2 ≤ fmt.precision) (hx : 0 ≤ x) :
    |x - fmt.rounded x| ≤ fmt.spacing (fmt.rounded x) / 2 := by
  have hu : fmt.Spaced (fmt.rounded x) := spaced_rounded (by omega) x
  have hnext := (rounded_nearest hp hx (spaced_next (by omega) hu)).1
  have hprev := (rounded_nearest hp hx (spaced_sub hu)).1
  generalize fmt.rounded x = u at *
  have hgap : (0 : ℚ) < fmt.spacing u := by exact_mod_cast spacing_pos fmt u
  rw [abs_le]
  constructor
  · rcases Nat.eq_zero_or_pos u with rfl | hpos
    · -- there is no number below zero
      rw [Nat.cast_zero, sub_zero]
      linarith
    · rw [Nat.cast_sub (Nat.le_of_dvd hpos hu), abs_sub_le_iff_middle_le (by linarith)] at hprev
      linarith
  · rw [Nat.cast_add, abs_sub_le_iff_le_middle (by linarith)] at hnext
    linarith

/-! ## Odd significands -/

/-- An odd significand is not that of a power of two, which is the first number with a gap. So a
number with an odd one has a neighbour below at the same distance as above. -/
theorem two_pow_log2_add_le (hp : 2 ≤ fmt.precision) (hu : fmt.Spaced u) (hodd : Odd (fmt.significand u))
    (hlarge : fmt.precision ≤ u.log2) : 2 ^ u.log2 + fmt.spacing u ≤ u := by
  have hdvd : fmt.spacing u ∣ 2 ^ u.log2 := by
    rw [spacing_eq]
    exact pow_dvd_pow 2 (by omega)
  have hpos : u ≠ 0 := by
    intro hzero
    rw [hzero, Nat.log2_zero] at hlarge
    omega
  refine add_le_of_dvd hdvd hu (Nat.lt_of_le_of_ne (Nat.log2_self_le hpos) fun heq => ?_)
  -- the significand of a power of two is even
  have hsignificand : fmt.significand u = 2 ^ (fmt.precision - 1) := by
    apply Nat.eq_of_mul_eq_mul_right (spacing_pos fmt u)
    calc fmt.significand u * fmt.spacing u = 2 ^ u.log2 := by rw [significand_mul hu, heq]
      _ = 2 ^ (fmt.precision - 1) * fmt.spacing u := by
        rw [spacing_eq, ← pow_add]
        congr 1
        omega
  rw [hsignificand] at hodd
  exact Nat.not_even_iff_odd.mpr hodd (Nat.even_pow.mpr ⟨even_two, by omega⟩)

/-- **All other numbers are a gap or more away** from a number with an odd significand. This holds
on both sides, unlike for a power of two. -/
theorem gap_of_odd (hp : 2 ≤ fmt.precision) (hu : fmt.Spaced u) (hodd : Odd (fmt.significand u))
    (hw : fmt.Spaced w) (hne : w ≠ u) : w + fmt.spacing u ≤ u ∨ u + fmt.spacing u ≤ w := by
  rcases Nat.lt_or_gt_of_ne hne with hlt | hgt
  · left
    by_cases hdvd : fmt.spacing u ∣ w
    · exact add_le_of_dvd hdvd hu hlt
    · -- the gap there is smaller, so a power of two lies in between
      have hlog := log2_lt_of_not_dvd hw hdvd
      have hlarge : fmt.precision ≤ u.log2 := by
        by_contra hsmall
        apply hdvd
        rw [spacing_eq, show u.log2 + 1 - fmt.precision = 0 by omega, pow_zero]
        exact Nat.one_dvd w
      have hbelow : w < 2 ^ u.log2 :=
        Nat.lt_log2_self.trans_le (Nat.pow_le_pow_right Nat.two_pos hlog)
      have hfirst := two_pow_log2_add_le hp hu hodd hlarge
      omega
  · exact Or.inr (next_le hu hw hgt)

/-- **What is rounded to an odd significand** is what is less than half a gap away. A rational at
half a gap goes to the neighbour, which is even. -/
theorem rounded_eq_iff_of_odd (hp : 2 ≤ fmt.precision) (hu : fmt.Spaced u)
    (hodd : Odd (fmt.significand u)) (hx : 0 ≤ x) :
    fmt.rounded x = u ↔ |x - u| < fmt.spacing u / 2 := by
  constructor
  · intro hround
    have hnear := rounded_near hp hx
    rw [hround] at hnear
    refine lt_of_le_of_ne hnear fun htie => ?_
    -- in the middle of two numbers the other one, which is even, would have been taken
    have hother (v : Nat) (hv : fmt.Spaced v) (hne : v ≠ u) (hsame : |x - u| = |x - v|) : False := by
      have heven := (rounded_nearest hp hx hv).2
      rw [hround] at heven
      exact Nat.not_even_iff_odd.mpr hodd (heven hsame hne)
    have hgap := spacing_pos fmt u
    have hgap' : (0 : ℚ) < fmt.spacing u := by exact_mod_cast hgap
    rcases (abs_eq (by linarith)).mp htie with habove | hbelow
    · apply hother _ (spaced_next (by omega) hu) (by omega)
      rw [Nat.cast_add, htie, abs_of_neg (by linarith)]
      linarith
    · have hpos : 0 < u := by
        apply Nat.pos_of_ne_zero
        intro hzero
        rw [hzero, significand, Nat.zero_div] at hodd
        exact absurd hodd (by decide)
      apply hother _ (spaced_sub hu) (by omega)
      rw [Nat.cast_sub (Nat.le_of_dvd hpos hu), htie, abs_of_pos (by linarith)]
      linarith
  · intro hlt
    have hw : fmt.Spaced (fmt.rounded x) := spaced_rounded (by omega) x
    have hnear := (rounded_nearest hp hx hu).1
    by_contra hne
    have htriangle := abs_sub_le (fmt.rounded x : ℚ) x u
    rw [abs_sub_comm _ x] at htriangle
    have hgap : (fmt.spacing u : ℚ) ≤ |(fmt.rounded x : ℚ) - u| := by
      rcases gap_of_odd hp hu hodd hw hne with hlow | hhigh
      · have hlow' : (fmt.rounded x : ℚ) + fmt.spacing u ≤ u := by exact_mod_cast hlow
        exact le_abs.mpr (.inr (by linarith))
      · have hhigh' : (u : ℚ) + fmt.spacing u ≤ fmt.rounded x := by exact_mod_cast hhigh
        exact le_abs.mpr (.inl (by linarith))
    linarith

end Format

end StackMachine
