import Mathlib
import StackMachine.Proofs.ArithmeticFailure
import StackMachine.Proofs.Quantities

/-!
# The nearest number of a format

Rounding a quotient to a format gives the number of the format that is nearest to it. Where two numbers
are as near, the one with the even significand is taken. Both are said of quantities, so they do not
depend on how numbers and quotients are kept.

* **`Binary.IsNearest`**, **`Binary.IsNearest.unique`**: what it is to be the nearest number, and that all
  such numbers have one quantity.
* **`roundDiv_nearest`**, **`Format.nearest_nearest`**, **`Binary.isNearest_ofUnits`**: rounded quotients
  are nearest among whole numbers, among multiples of the unit, and among numbers.
* **`Binary.isNearest_ofInt`**, **`Binary.quantity_ofInt_iff`**: integers in a format.
-/

namespace StackMachine

/-! ## Quotients -/

section

variable {num den : Nat}

theorem div_eq_floor_add (hd : 0 < den) :
    (num : ℚ) / den = (num / den : Nat) + (num % den : Nat) / den := by
  have hsplit : (num : ℚ) = (num / den : Nat) * den + (num % den : Nat) := by
    exact_mod_cast (Nat.div_add_mod' num den).symm
  have hden : (den : ℚ) ≠ 0 := by exact_mod_cast hd.ne'
  rw [hsplit]
  field_simp

/-- A quotient is rounded by half a unit at most, and by half a unit to an even number only. All
of rounding is in these two facts. -/
theorem roundDiv_near (num : Nat) (hd : 0 < den) :
    |(num : ℚ) / den - roundDiv num den| < 1 / 2
      ∨ |(num : ℚ) / den - roundDiv num den| = 1 / 2 ∧ Even (roundDiv num den) := by
  have hden : (0 : ℚ) < den := by exact_mod_cast hd
  have hrest : ((num % den : Nat) : ℚ) / den < 1 := by
    rw [div_lt_one hden]
    exact_mod_cast Nat.mod_lt num hd
  have hpos : 0 ≤ ((num % den : Nat) : ℚ) / den := by positivity
  rw [div_eq_floor_add hd, roundDiv]
  generalize num / den = q
  generalize num % den = r at *
  -- the rest is less than half the denominator, more, or just half
  split_ifs with hdown hup
  · left
    have hhalf : (r : ℚ) / den < 1 / 2 := by
      rw [div_lt_div_iff₀ hden two_pos]
      exact_mod_cast (by omega : r * 2 < 1 * den)
    rw [add_sub_cancel_left, abs_of_nonneg hpos]
    exact hhalf
  · left
    have hhalf : 1 / 2 < (r : ℚ) / den := by
      rw [div_lt_div_iff₀ two_pos hden]
      exact_mod_cast (by omega : 1 * den < r * 2)
    rw [abs_lt, Nat.cast_add, Nat.cast_one]
    constructor <;> linarith
  · right
    have hhalf : (r : ℚ) / den = 1 / 2 := by
      rw [div_eq_div_iff hden.ne' two_ne_zero]
      exact_mod_cast (by omega : r * 2 = 1 * den)
    rw [hhalf]
    rcases Nat.mod_two_eq_zero_or_one q with heven | hodd
    · rw [heven, Nat.add_zero, add_sub_cancel_left]
      exact ⟨by norm_num, Nat.even_iff.mpr heven⟩
    · rw [hodd, Nat.cast_add, Nat.cast_one, add_sub_add_left_eq_sub]
      exact ⟨by norm_num, Nat.even_iff.mpr (by omega)⟩

/-- **No whole number is nearer to a quotient than the rounded one**, and where another one is as near
the rounded one is even. -/
theorem roundDiv_nearest (num : Nat) (hd : 0 < den) (k : Nat) :
    |(num : ℚ) / den - roundDiv num den| ≤ |(num : ℚ) / den - k|
      ∧ (|(num : ℚ) / den - roundDiv num den| = |(num : ℚ) / den - k| → k ≠ roundDiv num den →
          Even (roundDiv num den)) := by
  by_cases hk : k = roundDiv num den
  · rw [hk]
    exact ⟨le_rfl, fun _ h => absurd rfl h⟩
  · -- another whole number is a unit away from the rounded one, so half a unit from the quotient
    have hunit : (1 : ℚ) ≤ |(roundDiv num den : ℚ) - k| := by
      have : (1 : ℤ) ≤ |(roundDiv num den : ℤ) - k| := Int.one_le_abs (by omega)
      exact_mod_cast this
    have htriangle := abs_sub_le (roundDiv num den : ℚ) ((num : ℚ) / den) k
    rw [abs_sub_comm _ ((num : ℚ) / den)] at htriangle
    rcases roundDiv_near num hd with hlt | ⟨heq, heven⟩
    · exact ⟨by linarith, fun htie _ => by linarith⟩
    · exact ⟨by linarith, fun _ _ => heven⟩

end

/-! ## Units -/

namespace Format

variable {fmt : Format} {v num den : Nat}

/-- The significand of a number of units: how many gaps it is. -/
def significand (fmt : Format) (units : Nat) : Nat :=
  units / fmt.spacing units

/-- A number of less than `2 ^ precision` gaps has no wider gaps itself. It is in the binade of
the gap or below. -/
theorem spacing_mul_dvd {c w : Nat} (hc : c < 2 ^ fmt.precision) :
    fmt.spacing (c * fmt.spacing w) ∣ fmt.spacing w := by
  rcases Nat.eq_zero_or_pos c with rfl | hpos
  · rw [Nat.zero_mul]
    exact spacing_dvd_spacing (Nat.zero_le w)
  · have hne : c * fmt.spacing w ≠ 0 := (Nat.mul_pos hpos (spacing_pos fmt w)).ne'
    have hlog : (c * fmt.spacing w).log2 < fmt.precision + (w.log2 + 1 - fmt.precision) := by
      rw [Nat.log2_lt hne, pow_add, ← spacing_eq]
      exact Nat.mul_lt_mul_of_pos_right hc (spacing_pos fmt w)
    exact Nat.pow_dvd_pow 2 (by omega)

/-- An even number of gaps has an even significand, also if it is so large that the gap is
another. The number of gaps is then a power of two, and two digits of precision leave a factor of
two in the significand. -/
theorem even_significand (hp : 2 ≤ fmt.precision) {c w : Nat} (hc : Even c)
    (hle : c ≤ 2 ^ fmt.precision) : Even (fmt.significand (c * fmt.spacing w)) := by
  rw [significand]
  rcases Nat.lt_or_eq_of_le hle with hlt | rfl
  · rw [Nat.mul_div_assoc c (spacing_mul_dvd hlt)]
    exact hc.mul_right _
  · -- the magnitude is a power of two and the gap has doubled
    have hpower : 2 ^ fmt.precision * fmt.spacing w
        = 2 ^ (fmt.precision - 1) * 2 ^ ((w.log2 + 1 - fmt.precision) + 1) := by
      rw [spacing_eq, ← pow_add, ← pow_add]
      congr 1
      omega
    have hgap : fmt.spacing (2 ^ fmt.precision * fmt.spacing w)
        = 2 ^ ((w.log2 + 1 - fmt.precision) + 1) := by
      rw [spacing_eq fmt (2 ^ _ * _), hpower, ← pow_add, Nat.log2_two_pow]
      congr 1
      omega
    rw [hgap, hpower, Nat.mul_div_cancel _ (Nat.two_pow_pos _)]
    exact Nat.even_pow.mpr ⟨even_two, by omega⟩

/-- Between two numbers with even significands there is another one. So a rational cannot be
halfway between two such numbers without a nearer one. -/
theorem exists_between (hp : 0 < fmt.precision) {u v : Nat} (hu : fmt.Representable u)
    (hv : fmt.Representable v) (hlt : u < v) (hueven : Even (fmt.significand u))
    (hveven : Even (fmt.significand v)) : ∃ w, fmt.Representable w ∧ u < w ∧ w < v := by
  have hgap := spacing_pos fmt u
  have hm : fmt.significand u * fmt.spacing u = u := Nat.div_mul_cancel (spacing_dvd hu)
  obtain ⟨k, hk⟩ : fmt.spacing u ∣ v := (spacing_dvd_spacing hlt.le).trans (spacing_dvd hv)
  rw [Nat.mul_comm] at hk
  -- the next number up has an odd significand, so it is not the second one
  have hnext : fmt.significand u + 1 < 2 ^ fmt.precision := by
    have hlt : fmt.significand u < 2 ^ fmt.precision :=
      Nat.div_lt_of_lt_mul (by rw [Nat.mul_comm]; exact lt_mul_spacing fmt u)
    have hpow : Even (2 ^ fmt.precision) := Nat.even_pow.mpr ⟨even_two, hp.ne'⟩
    obtain ⟨c, hc⟩ := hueven
    obtain ⟨d, hd⟩ := hpow
    omega
  have hle : fmt.significand u + 1 ≤ k := by
    by_contra hgt
    have : k * fmt.spacing u ≤ fmt.significand u * fmt.spacing u := Nat.mul_le_mul_right _ (by omega)
    omega
  have hne : fmt.significand u + 1 ≠ k := by
    rintro rfl
    have hsame : fmt.spacing v = fmt.spacing u := by
      apply Nat.dvd_antisymm
      · rw [hk]
        exact spacing_mul_dvd hnext
      · exact spacing_dvd_spacing hlt.le
    have hodd : fmt.significand v = fmt.significand u + 1 := by
      rw [significand, hsame, hk, Nat.mul_div_cancel _ hgap]
    rw [hodd, Nat.even_add_one] at hveven
    exact hveven hueven
  have hlow : u < (fmt.significand u + 1) * fmt.spacing u := by
    rw [Nat.add_mul, hm]
    omega
  have hhigh : (fmt.significand u + 1) * fmt.spacing u < v := by
    rw [hk]
    exact Nat.mul_lt_mul_of_pos_right (by omega) hgap
  exact ⟨_, representable_of_mul hnext (hhigh.trans hv.1), hlow, hhigh⟩

/-- A number that is no multiple of a gap lies below the binade of the gap, because gaps grow with
the magnitude. -/
theorem log2_lt_of_not_dvd {w : Nat} (hv : fmt.Spaced v) (h : ¬fmt.spacing w ∣ v) : v.log2 < w.log2 := by
  by_contra hge
  apply h
  refine Nat.dvd_trans ?_ hv
  rw [spacing_eq, spacing_eq]
  exact Nat.pow_dvd_pow 2 (by omega)

/-- What lies below the binade of a quotient has a multiple of the quotient's gap above it. This
multiple is nearer to the quotient than the number is. -/
theorem exists_gap_between (hp : 0 < fmt.precision) {w : Nat} (hv : fmt.Spaced v)
    (h : ¬fmt.spacing w ∣ v) : ∃ k, v < k * fmt.spacing w ∧ k * fmt.spacing w ≤ w := by
  have hlt : v < w := by
    by_contra hge
    exact h ((spacing_dvd_spacing (Nat.le_of_not_lt hge)).trans hv)
  have hlog := log2_lt_of_not_dvd hv h
  have hpower : 2 ^ (w.log2 - (w.log2 + 1 - fmt.precision)) * fmt.spacing w = 2 ^ w.log2 := by
    rw [spacing_eq, ← pow_add]
    congr 1
    omega
  refine ⟨_, ?_, hpower.trans_le (Nat.log2_self_le (by omega))⟩
  rw [hpower]
  exact Nat.lt_log2_self.trans_le (Nat.pow_le_pow_right Nat.two_pos hlog)

/-- **No number of the format is nearer than the rounded one**, and where another one is as near the
rounded one has an even significand. -/
theorem nearest_nearest (num : Nat) (hp : 2 ≤ fmt.precision) (hd : 0 < den) (hv : fmt.Spaced v) :
    |(num : ℚ) / den - fmt.nearest num den| ≤ |(num : ℚ) / den - v|
      ∧ (|(num : ℚ) / den - fmt.nearest num den| = |(num : ℚ) / den - v| →
          v ≠ fmt.nearest num den → Even (fmt.significand (fmt.nearest num den))) := by
  have hgap : (0 : ℚ) < fmt.spacing (num / den) := by exact_mod_cast spacing_pos fmt _
  have hdgap : 0 < den * fmt.spacing (num / den) := Nat.mul_pos hd (spacing_pos fmt _)
  -- distances are counted in gaps
  have hdistance (k : Nat) : |(num : ℚ) / den - (k * fmt.spacing (num / den) : Nat)|
      = |(num : ℚ) / (den * fmt.spacing (num / den) : Nat) - k| * fmt.spacing (num / den) := by
    have hden : (den : ℚ) ≠ 0 := by exact_mod_cast hd.ne'
    calc |(num : ℚ) / den - (k * fmt.spacing (num / den) : Nat)|
        = |((num : ℚ) / (den * fmt.spacing (num / den) : Nat) - k) * fmt.spacing (num / den)| := by
          congr 1
          push_cast
          field_simp
      _ = _ := by rw [abs_mul, abs_of_pos hgap]
  by_cases hdvd : fmt.spacing (num / den) ∣ v
  · obtain ⟨k, rfl⟩ := hdvd
    rw [Nat.mul_comm _ k]
    obtain ⟨hle, heven⟩ := roundDiv_nearest num hdgap k
    rw [nearest, hdistance, hdistance]
    refine ⟨mul_le_mul_of_nonneg_right hle hgap.le, fun htie hne => ?_⟩
    apply even_significand hp _ (roundDiv_spacing_le fmt num hd)
    apply heven (mul_right_cancel₀ hgap.ne' htie)
    rintro rfl
    exact hne rfl
  · -- a multiple of the gap lies between the number and the quotient
    obtain ⟨k, hlow, hhigh⟩ := exists_gap_between (by omega) hv hdvd
    have hstep : |(num : ℚ) / den - fmt.nearest num den|
        ≤ |(num : ℚ) / den - (k * fmt.spacing (num / den) : Nat)| := by
      rw [nearest, hdistance, hdistance]
      exact mul_le_mul_of_nonneg_right (roundDiv_nearest num hdgap k).1 hgap.le
    have hfloor : ((num / den : Nat) : ℚ) ≤ num / den := Nat.cast_div_le
    have hlow' : (v : ℚ) < (k * fmt.spacing (num / den) : Nat) := by exact_mod_cast hlow
    have hhigh' : ((k * fmt.spacing (num / den) : Nat) : ℚ) ≤ (num / den : Nat) := by
      exact_mod_cast hhigh
    have hlt : |(num : ℚ) / den - fmt.nearest num den| < |(num : ℚ) / den - v| := by
      rw [abs_of_nonneg (by linarith : (0 : ℚ) ≤ num / den - v)]
      rw [abs_of_nonneg (by linarith : (0 : ℚ) ≤ num / den - (k * fmt.spacing (num / den) : Nat))]
        at hstep
      linarith
    exact ⟨hlt.le, fun htie _ => absurd htie hlt.ne⟩

end Format

/-! ## Numbers -/

namespace Binary

variable {fmt : Format} {num den : Nat}

/-- The significand of a number; only finite numbers have one. -/
def significand : Binary fmt → Nat
  | .finite _ units _ => fmt.significand units
  | _ => 0

/-- A finite number that is nearest to a rational among all numbers of its format. Where another one is
as near, its significand is even. -/
def IsNearest (x : Binary fmt) (r : ℚ) : Prop :=
  ∃ a, x.quantity = .rational a ∧ ∀ (y : Binary fmt) (b : ℚ), y.quantity = .rational b →
    |r - a| ≤ |r - b| ∧ (|r - a| = |r - b| → b ≠ a → Even x.significand)

theorem exists_sign (s : Bool) : ∃ σ : ℚ, |σ| = 1 ∧ ∀ n : Nat, (signed s n : ℚ) = σ * n := by
  cases s with
  | false => exact ⟨1, by norm_num, fun n => by simp⟩
  | true => exact ⟨-1, by norm_num, fun n => by simp⟩

section

variable {σ τ p q : ℚ}

/-- Signs bring numbers no nearer to each other, so it is enough to compare the magnitudes. -/
theorem abs_sub_le_of_signs (hσ : |σ| = 1) (hτ : |τ| = 1) (hp : 0 ≤ p) (hq : 0 ≤ q) :
    |p - q| ≤ |σ * p - τ * q| := by
  calc |p - q| = |(|σ * p| - |τ * q|)| := by
        rw [abs_mul, abs_mul, hσ, hτ, one_mul, one_mul, abs_of_nonneg hp, abs_of_nonneg hq]
    _ ≤ |σ * p - τ * q| := abs_abs_sub_abs_le _ _

/-- Different signs take numbers further apart, unless one of them is zero. This is the case of a
tie between two signed numbers. -/
theorem eq_zero_of_signs (hσ : |σ| = 1) (hτ : |τ| = 1) (hne : σ ≠ τ) (hp : 0 ≤ p) (hq : 0 ≤ q)
    (h : |p - q| = |σ * p - τ * q|) : p = 0 ∨ q = 0 := by
  -- with different signs the magnitudes add up
  have hsum : |σ * p - τ * q| = p + q := by
    rw [← abs_of_nonneg (add_nonneg hp hq)]
    rcases (abs_eq zero_le_one).mp hσ with rfl | rfl <;>
      rcases (abs_eq zero_le_one).mp hτ with rfl | rfl
    · exact absurd rfl hne
    · congr 1
      ring
    · rw [← abs_neg]
      congr 1
      ring
    · exact absurd rfl hne
  rw [hsum] at h
  rcases abs_cases (p - q) with ⟨heq, -⟩ | ⟨heq, -⟩
  · exact .inr (by linarith)
  · exact .inl (by linarith)

end

/-- **A quotient is rounded to the nearest number**, unless it is too large. `nearest_nearest`
says it of the magnitudes, and the lemmas on signs carry it over. -/
theorem isNearest_ofUnits (hp : 2 ≤ fmt.precision) (hd : 0 < den) (negative : Bool)
    (hfinite : (ofUnits fmt negative num den).isFinite = true) :
    (ofUnits fmt negative num den).IsNearest (signed negative num / den / 2 ^ fmt.scale) := by
  unfold ofUnits at hfinite ⊢
  dsimp only at hfinite ⊢
  split at hfinite
  · next hrep =>
    rw [dif_pos hrep]
    refine ⟨_, rfl, ?_⟩
    intro y b hb
    obtain ⟨t, v, hv, rfl, rfl⟩ := exists_finite hb
    obtain ⟨σ, hσ, hsign⟩ := exists_sign negative
    obtain ⟨τ, hτ, hsign'⟩ := exists_sign t
    have hquot : (0 : ℚ) ≤ num / den := by positivity
    have hunit : (0 : ℚ) < 2 ^ fmt.scale := by positivity
    -- both distances without the unit and, where the signs are the same, without them
    have hself : |(signed negative num : ℚ) / den / 2 ^ fmt.scale
          - signed negative (fmt.nearest num den) / 2 ^ fmt.scale|
        = |(num : ℚ) / den - fmt.nearest num den| / 2 ^ fmt.scale := by
      rw [hsign, hsign, ← sub_div, mul_div_assoc, ← mul_sub, abs_div, abs_mul, hσ, one_mul,
        abs_of_pos hunit]
    have hother : |(signed negative num : ℚ) / den / 2 ^ fmt.scale - signed t v / 2 ^ fmt.scale|
        = |σ * ((num : ℚ) / den) - τ * v| / 2 ^ fmt.scale := by
      rw [hsign, hsign', ← sub_div, mul_div_assoc, abs_div, abs_of_pos hunit]
    obtain ⟨hle, heven⟩ := Format.nearest_nearest num hp hd (Format.spacing_dvd hv)
    have hsigns := abs_sub_le_of_signs hσ hτ hquot (Nat.cast_nonneg v)
    rw [hself, hother]
    refine ⟨div_le_div_of_nonneg_right (hle.trans hsigns) hunit.le, fun htie hne => ?_⟩
    have htie' := (div_left_inj' hunit.ne').mp htie
    by_cases hv' : v = fmt.nearest num den
    · -- the same units with another sign are as near to zero only, and zero is not rounded
      have hzero : v ≠ 0 := by
        rintro rfl
        exact hne (by rw [← hv', hsign, hsign']; simp)
      have hστ : σ ≠ τ := by
        rintro rfl
        exact hne (by rw [← hv', hsign, hsign'])
      rw [← hv'] at htie'
      rcases eq_zero_of_signs hσ hτ hστ hquot (Nat.cast_nonneg v) htie' with hnum | hunits
      · have hnum' : num = 0 := by simpa [hd.ne'] using hnum
        rw [hnum', Format.nearest_zero] at hv'
        exact absurd hv' hzero
      · exact absurd (by exact_mod_cast hunits) hzero
    · exact heven (le_antisymm hle (hsigns.trans htie'.ge)) hv'
  · cases hfinite

/-- Between two signed numbers with even significands there is another one. If the signs differ
this is zero, or a number on one of the sides. -/
theorem exists_signed_between (hp : 0 < fmt.precision) {s t : Bool} {u v : Nat}
    (hu : fmt.Representable u) (hv : fmt.Representable v) (hlt : signed s u < signed t v)
    (hueven : Even (fmt.significand u)) (hveven : Even (fmt.significand v)) :
    ∃ q w, fmt.Representable w ∧ signed s u < signed q w ∧ signed q w < signed t v := by
  have hpositive (h : u < v) (hs : signed s u = u) (ht : signed t v = v) :
      ∃ q w, fmt.Representable w ∧ signed s u < signed q w ∧ signed q w < signed t v := by
    obtain ⟨w, hw, hlow, hhigh⟩ := Format.exists_between hp hu hv h hueven hveven
    exact ⟨false, w, hw, by rw [hs, signed_false]; omega, by rw [ht, signed_false]; omega⟩
  have hnegative (h : v < u) (hs : signed s u = -u) (ht : signed t v = -v) :
      ∃ q w, fmt.Representable w ∧ signed s u < signed q w ∧ signed q w < signed t v := by
    obtain ⟨w, hw, hlow, hhigh⟩ := Format.exists_between hp hv hu h hveven hueven
    exact ⟨true, w, hw, by rw [hs, signed_true]; omega, by rw [ht, signed_true]; omega⟩
  -- with the same sign the magnitudes decide, with different signs zero lies in between
  cases s <;> cases t <;> simp only [signed_false, signed_true] at hlt
  · exact hpositive (by omega) rfl rfl
  · omega
  · rcases Nat.eq_zero_or_pos u with rfl | hpos
    · exact hpositive (by omega) rfl rfl
    · rcases Nat.eq_zero_or_pos v with rfl | hpos'
      · exact hnegative (by omega) rfl rfl
      · exact ⟨false, 0, fmt.representable_zero, by rw [signed_true, signed_false]; omega,
          by rw [signed_false, signed_false]; omega⟩
  · exact hnegative (by omega) rfl rfl

/-- What lies between two numbers is nearer to the middle than they are, for the rational has to
be the middle if both are as near. -/
theorem abs_sub_lt_of_between {r a b c : ℚ} (hmiddle : |r - a| = |r - b|) (hac : a < c) (hcb : c < b) :
    |r - c| < |r - a| := by
  rcases abs_eq_abs.mp hmiddle with hsame | hopposite
  · linarith
  · rw [abs_of_pos (by linarith : 0 < r - a), abs_lt]
    constructor <;> linarith

/-- **There is one nearest number**, but for the sign of zero. Two that are as near would both
have even significands, and then a third one would be nearer. -/
theorem IsNearest.unique (hp : 0 < fmt.precision) {x y : Binary fmt} {r : ℚ} (hx : x.IsNearest r)
    (hy : y.IsNearest r) : x.quantity = y.quantity := by
  obtain ⟨a, ha, hxa⟩ := hx
  obtain ⟨b, hb, hyb⟩ := hy
  by_contra hne
  have hab : a ≠ b := by
    rintro rfl
    exact hne (ha.trans hb.symm)
  have htie : |r - a| = |r - b| := le_antisymm (hxa y b hb).1 (hyb x a ha).1
  have hxeven := (hxa y b hb).2 htie hab.symm
  have hyeven := (hyb x a ha).2 htie.symm hab
  wlog hlt : a < b generalizing x y a b
  · exact this b hb hyb a ha hxa (Ne.symm hne) hab.symm htie.symm hyeven hxeven
      (lt_of_le_of_ne (not_lt.mp hlt) hab.symm)
  obtain ⟨s, u, hu, rfl, rfl⟩ := exists_finite ha
  obtain ⟨t, v, hv, rfl, rfl⟩ := exists_finite hb
  have hunit : (0 : ℚ) < 2 ^ fmt.scale := by positivity
  have hlt' : signed s u < signed t v := by
    rw [div_lt_div_iff_of_pos_right hunit] at hlt
    exact_mod_cast hlt
  -- what lies between the two is nearer than both
  obtain ⟨q, w, hw, hlow, hhigh⟩ := exists_signed_between hp hu hv hlt' hxeven hyeven
  have hlow' : (signed s u : ℚ) / 2 ^ fmt.scale < signed q w / 2 ^ fmt.scale := by
    rw [div_lt_div_iff_of_pos_right hunit]
    exact_mod_cast hlow
  have hhigh' : (signed q w : ℚ) / 2 ^ fmt.scale < signed t v / 2 ^ fmt.scale := by
    rw [div_lt_div_iff_of_pos_right hunit]
    exact_mod_cast hhigh
  exact absurd (hxa (.finite q w hw) _ rfl).1 (abs_sub_lt_of_between htie hlow' hhigh').not_ge

/-! ## Integers -/

variable {n : Int}

theorem units_of_int (fmt : Format) (n : Int) :
    (signed (decide (n < 0)) (n.natAbs * 2 ^ fmt.scale) : ℚ) / 2 ^ fmt.scale = n := by
  have hunit : (2 : ℚ) ^ fmt.scale ≠ 0 := by positivity
  rw [signed_mul, Numeral.signed_natAbs, Int.cast_mul, div_eq_iff hunit]
  norm_cast

theorem isNearest_ofInt (hp : 2 ≤ fmt.precision) (hfinite : (ofInt fmt n).isFinite = true) :
    (ofInt fmt n).IsNearest n := by
  have hnearest := isNearest_ofUnits hp Nat.one_pos _ hfinite
  rwa [Nat.cast_one, div_one, Nat.pow_eq, units_of_int] at hnearest

/-- **An integer is exact if and only if it is a number of the format.** Rounding gives a number
of the format, so an integer that is none is changed. -/
theorem quantity_ofInt_iff :
    (ofInt fmt n).quantity = .rational n ↔ fmt.Representable (n.natAbs * 2 ^ fmt.scale) := by
  constructor
  · intro h
    obtain ⟨s, u, hu, -, heq⟩ := exists_finite h
    have hunit : (2 : ℚ) ^ fmt.scale ≠ 0 := by positivity
    have hunits : n * 2 ^ fmt.scale = signed s u := by
      rw [eq_div_iff hunit] at heq
      exact_mod_cast heq
    have habs := congrArg Int.natAbs hunits
    rw [natAbs_signed, Int.natAbs_mul, Int.natAbs_pow] at habs
    exact habs ▸ hu
  · intro h
    rw [ofInt_eq h, quantity, units_of_int]

end Binary

/-- Integers of a format are those with a significand of its precision, told with integers and
without the scale. -/
theorem Format.representable_int_iff {fmt : Format} {n : Int}
    (h : n.natAbs * 2 ^ fmt.scale < 2 ^ fmt.bound) :
    fmt.Representable (n.natAbs * 2 ^ fmt.scale)
      ↔ ∃ (m : Int) (e : Nat), n = m * 2 ^ e ∧ |m| < 2 ^ fmt.precision := by
  rw [representable_iff]
  constructor
  · rintro ⟨-, m, e, hm, heq⟩
    rcases Nat.lt_or_ge e fmt.scale with hlt | hle
    · -- the integer has the digits of a significand and fewer
      refine ⟨n, 0, by rw [pow_zero, mul_one], ?_⟩
      have hle : n.natAbs ≤ m := by
        apply Nat.le_of_mul_le_mul_right _ (Nat.two_pow_pos e)
        rw [← heq]
        exact Nat.mul_le_mul_left _ (Nat.pow_le_pow_right Nat.two_pos hlt.le)
      rw [Int.abs_eq_natAbs]
      exact_mod_cast hle.trans_lt hm
    · -- the scale is cancelled from the power, and the sign is put back
      refine ⟨signed (decide (n < 0)) m, e - fmt.scale, ?_, ?_⟩
      · have hunits : n.natAbs = m * 2 ^ (e - fmt.scale) := by
          apply Nat.eq_of_mul_eq_mul_right (Nat.two_pow_pos fmt.scale)
          rw [heq, Nat.mul_assoc, ← pow_add, Nat.sub_add_cancel hle]
        have hsigned := signed_mul (decide (n < 0)) m (2 ^ (e - fmt.scale))
        rw [← hunits, Numeral.signed_natAbs] at hsigned
        exact_mod_cast hsigned
      · rw [Int.abs_eq_natAbs, natAbs_signed]
        exact_mod_cast hm
  · rintro ⟨m, e, rfl, hm⟩
    refine ⟨h, m.natAbs, e + fmt.scale, ?_, ?_⟩
    · rw [Int.abs_eq_natAbs] at hm
      exact_mod_cast hm
    · rw [Int.natAbs_mul, Int.natAbs_pow, pow_add, Nat.mul_assoc]
      rfl

end StackMachine
