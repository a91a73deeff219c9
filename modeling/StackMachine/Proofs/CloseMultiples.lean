import Mathlib

/-!
# Multiples that come close to whole numbers

How close the multiples `c * (P / Q)` with a bounded factor `c` come to whole numbers can be read off two
fractions that enclose `P / Q` and are neighbours in the sense that nothing with a smaller denominator lies
between them. Every pair `(c, m)` is an integer combination of the two fractions, so its distance is a
combination of their distances. The enclosing fractions are found by Euclid's algorithm, stopped where the
factors become too large.

* **`Enclosure`**: two enclosing fractions, with the proof that they are neighbours.
* **`Enclosure.narrow`**: Euclid's algorithm.
* **`Enclosure.Separates`**, **`Enclosure.Separates.far`**: multiples stay away from whole numbers.
-/

namespace StackMachine

/-- The fractions `num / den` and `num' / den'` enclose `P / Q`, and their determinant is one. -/
structure Enclosure (P Q : Nat) where
  den : Nat
  num : Nat
  den' : Nat
  num' : Nat
  neighbours : num' * den = num * den' + 1
  low : num * Q ≤ den * P
  high : den' * P < num' * Q

namespace Enclosure

variable {P Q : Nat} (f : Enclosure P Q)

/-- How far the lower fraction is below `P / Q`, times `den * Q`. -/
def below : Nat :=
  f.den * P - f.num * Q

/-- How far the upper fraction is above `P / Q`, times `den' * Q`. -/
def above : Nat :=
  f.num' * Q - f.den' * P

/-- `P / Q` lies between a whole number and infinity. -/
def whole (P : Nat) (hQ : 0 < Q) : Enclosure P Q where
  den := 1
  num := P / Q
  den' := 0
  num' := 1
  neighbours := rfl
  low := by
    rw [Nat.one_mul]
    exact Nat.div_mul_le_self P Q
  high := by omega

/-- The lower fraction moves up by steps of the upper one. -/
def raise (k : Nat) (hk : k * f.above ≤ f.below) : Enclosure P Q where
  den := f.den + k * f.den'
  num := f.num + k * f.num'
  den' := f.den'
  num' := f.num'
  neighbours := by
    have h := f.neighbours
    linear_combination h
  low := by
    have hlow := f.low
    have hhigh := f.high
    unfold above below at hk
    rw [Nat.mul_sub] at hk
    have hk' : k * (f.num' * Q) + f.num * Q ≤ f.den * P + k * (f.den' * P) := by omega
    calc (f.num + k * f.num') * Q = k * (f.num' * Q) + f.num * Q := by ring
      _ ≤ f.den * P + k * (f.den' * P) := hk'
      _ = (f.den + k * f.den') * P := by ring
  high := f.high

/-- The upper fraction moves down by steps of the lower one. -/
def lower (k : Nat) (hk : k * f.below < f.above) : Enclosure P Q where
  den := f.den
  num := f.num
  den' := f.den' + k * f.den
  num' := f.num' + k * f.num
  neighbours := by
    have h := f.neighbours
    linear_combination h
  low := f.low
  high := by
    have hlow := f.low
    have hhigh := f.high
    unfold above below at hk
    rw [Nat.mul_sub] at hk
    have hk' : f.den' * P + k * (f.den * P) < k * (f.num * Q) + f.num' * Q := by
      have := Nat.mul_le_mul_left k hlow
      omega
    calc (f.den' + k * f.den) * P = f.den' * P + k * (f.den * P) := by ring
      _ < k * (f.num * Q) + f.num' * Q := hk'
      _ = (f.num' + k * f.num) * Q := by ring

/-- The steps that leave the upper fraction above `P / Q`, as far as the factor stays within the limit. -/
def stepsDown (limit : Nat) : Nat :=
  min ((f.above - 1) / f.below) ((limit - f.den') / f.den)

/-- The steps that leave the lower fraction at or below `P / Q`, as far as the factor stays within the
limit. -/
def stepsUp (limit : Nat) : Nat :=
  min (f.below / f.above) ((limit - f.den) / f.den')

theorem above_pos : 0 < f.above :=
  Nat.sub_pos_of_lt f.high

/-- The steps stop before the upper fraction would reach `P / Q`. -/
theorem stepsDown_mul_lt (limit : Nat) : f.stepsDown limit * f.below < f.above := by
  have hpos := f.above_pos
  have hle : f.stepsDown limit * f.below ≤ (f.above - 1) / f.below * f.below :=
    Nat.mul_le_mul_right _ (Nat.min_le_left _ _)
  have := Nat.div_mul_le_self (f.above - 1) f.below
  omega

/-- The lower fraction may reach `P / Q`, but does not go beyond. -/
theorem stepsUp_mul_le (limit : Nat) : f.stepsUp limit * f.above ≤ f.below :=
  (Nat.mul_le_mul_right _ (Nat.min_le_left _ _)).trans (Nat.div_mul_le_self _ _)

/-- Euclid's algorithm: both fractions in turn move as far as they can. -/
def narrow (limit : Nat) : Nat → Enclosure P Q → Enclosure P Q
  | 0, f => f
  | turns + 1, f =>
    let g := f.lower _ (f.stepsDown_mul_lt limit)
    narrow limit turns (g.raise _ (g.stepsUp_mul_le limit))

/-! ## Distances -/

/-- The multiples with a factor up to the limit are whole numbers or further than `1 / bound` from them,
except that `exception` may be come near to. Where `P / Q` is the lower fraction itself, the distance of
the upper one is all that counts. -/
def Separates (bound limit exception : Nat) : Prop :=
  f.below = 0 ∧ Q < f.above * bound
    ∨ limit < f.den + f.den' ∧ Q < f.below * bound
      ∧ (Q < f.above * bound ∨ f.num' = exception ∧ limit < 2 * f.den')

instance (bound limit exception : Nat) : Decidable (f.Separates bound limit exception) :=
  inferInstanceAs (Decidable (_ ∨ _))

variable {f} {bound limit exception c m : Nat}

/-- Every pair of a factor and a whole number is a combination of the two fractions. The
determinant is one, so the coefficients are integers. -/
theorem exists_combination (f : Enclosure P Q) (c m : Nat) :
    ∃ s t : ℤ, (c : ℤ) = s * f.den + t * f.den' ∧ (m : ℤ) = s * f.num + t * f.num'
      ∧ (c : ℤ) * P - m * Q = s * f.below - t * f.above := by
  have hdet : (f.num' : ℤ) * f.den = f.num * f.den' + 1 := by exact_mod_cast f.neighbours
  have hbelow : (f.below : ℤ) = f.den * P - f.num * Q := by
    rw [below, Nat.cast_sub f.low]
    push_cast
    rfl
  have habove : (f.above : ℤ) = f.num' * Q - f.den' * P := by
    rw [above, Nat.cast_sub f.high.le]
    push_cast
    rfl
  refine ⟨c * f.num' - m * f.den', m * f.den - c * f.num, ?_, ?_, ?_⟩
  · linear_combination -(c : ℤ) * hdet
  · linear_combination -(m : ℤ) * hdet
  · rw [hbelow, habove]
    linear_combination (m * Q - c * P : ℤ) * hdet

section

variable {s t : ℤ}

/-- With both fractions the factor would be too large, and without either nothing would be left.
So the coefficients have different signs. -/
theorem signs_of_factor (hfactor : limit < f.den + f.den') (hc : 0 < c) (hlimit : c ≤ limit)
    (h : (c : ℤ) = s * f.den + t * f.den') : 0 < s ∧ t ≤ 0 ∨ s ≤ 0 ∧ 0 < t := by
  have hden : (0 : ℤ) ≤ f.den := Int.natCast_nonneg _
  have hden' : (0 : ℤ) ≤ f.den' := Int.natCast_nonneg _
  rcases lt_or_ge 0 s with hs | hs
  · refine .inl ⟨hs, not_lt.mp fun ht => ?_⟩
    have hs' : (f.den : ℤ) ≤ s * f.den := le_mul_of_one_le_left hden hs
    have ht' : (f.den' : ℤ) ≤ t * f.den' := le_mul_of_one_le_left hden' ht
    omega
  · refine .inr ⟨hs, not_le.mp fun ht => ?_⟩
    have hs' : s * f.den ≤ 0 := mul_nonpos_of_nonpos_of_nonneg hs hden
    have ht' : t * f.den' ≤ 0 := mul_nonpos_of_nonpos_of_nonneg ht hden'
    omega

/-- The distances of the two fractions add up. With coefficients of different signs the two terms
of the difference have the same sign. -/
theorem abs_combination (h : 0 < s ∧ t ≤ 0 ∨ s ≤ 0 ∧ 0 < t) :
    |s * f.below - t * f.above| = |s| * f.below + |t| * f.above := by
  have hbelow : (0 : ℤ) ≤ f.below := Int.natCast_nonneg _
  have habove : (0 : ℤ) ≤ f.above := Int.natCast_nonneg _
  rcases h with ⟨hs, ht⟩ | ⟨hs, ht⟩
  · have hpart := mul_nonneg hs.le hbelow
    have hpart' := mul_nonpos_of_nonpos_of_nonneg ht habove
    rw [abs_of_pos hs, abs_of_nonpos ht, abs_of_nonneg (by omega), neg_mul, sub_eq_add_neg]
  · have hpart := mul_nonpos_of_nonpos_of_nonneg hs hbelow
    have hpart' := mul_nonneg ht.le habove
    rw [abs_of_nonpos hs, abs_of_pos ht, abs_of_nonpos (by omega), neg_mul, neg_sub, sub_eq_neg_add]

theorem below_le_combination (hs : s ≠ 0) : (f.below : ℤ) ≤ |s| * f.below + |t| * f.above := by
  have hpart := le_mul_of_one_le_left (Int.natCast_nonneg f.below) (Int.one_le_abs hs)
  have hpart' := mul_nonneg (abs_nonneg t) (Int.natCast_nonneg f.above)
  omega

theorem above_le_combination (ht : t ≠ 0) : (f.above : ℤ) ≤ |s| * f.below + |t| * f.above := by
  have hpart := mul_nonneg (abs_nonneg s) (Int.natCast_nonneg f.below)
  have hpart' := le_mul_of_one_le_left (Int.natCast_nonneg f.above) (Int.one_le_abs ht)
  omega

end

/-- **Multiples stay away from whole numbers**, unless they meet them. Every multiple is a
combination of the two fractions, and so at least as far from a whole number as the nearer of
them. The exception is the whole number of the upper fraction, which may come close. -/
theorem Separates.far (h : f.Separates bound limit exception) (hc : 0 < c) (hlimit : c ≤ limit)
    (hne : c * P ≠ m * Q) : m = exception ∨ (Q : ℤ) < |(c : ℤ) * P - m * Q| * bound := by
  obtain ⟨s, t, hfactors, hm, hdistance⟩ := exists_combination f c m
  have hne' : (c : ℤ) * P - m * Q ≠ 0 := by
    intro hzero
    apply hne
    exact_mod_cast sub_eq_zero.mp hzero
  -- a distance that is enough
  have henough (n : Nat) (hn : Q < n * bound) (hle : (n : ℤ) ≤ |(c : ℤ) * P - m * Q|) :
      (Q : ℤ) < |(c : ℤ) * P - m * Q| * bound := by
    have hn' : (Q : ℤ) < n * bound := by exact_mod_cast hn
    exact hn'.trans_le (mul_le_mul_of_nonneg_right hle (Int.natCast_nonneg _))
  rcases h with ⟨hexact, hfar⟩ | ⟨hlarge, hlow, hhigh⟩
  · -- only the part of the upper fraction counts
    right
    apply henough _ hfar
    rw [hexact, Nat.cast_zero, mul_zero, zero_sub] at hdistance
    have ht : t ≠ 0 := by
      rintro rfl
      exact hne' (by rw [hdistance, zero_mul, neg_zero])
    rw [hdistance, abs_neg, abs_mul, Nat.abs_cast]
    exact le_mul_of_one_le_left (Int.natCast_nonneg _) (Int.one_le_abs ht)
  · have hsigns := signs_of_factor hlarge hc hlimit hfactors
    rw [hdistance, abs_combination hsigns] at henough ⊢
    by_cases hs : s = 0
    · have ht : 0 < t := by omega
      rcases hhigh with hfar | ⟨hexception, htwice⟩
      · exact .inr (henough _ hfar (above_le_combination ht.ne'))
      · -- the upper fraction itself, since twice its factor is too large
        left
        have hone : t = 1 := by
          by_contra hmore
          have htwo : 2 * (f.den' : ℤ) ≤ t * f.den' :=
            mul_le_mul_of_nonneg_right (by omega) (Int.natCast_nonneg _)
          rw [hs, zero_mul] at hfactors
          omega
        rw [hs, hone, zero_mul, zero_add, one_mul] at hm
        rw [← hexception]
        exact_mod_cast hm
    · exact .inr (henough _ hlow (below_le_combination hs))

end Enclosure

end StackMachine
