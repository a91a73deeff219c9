import Mathlib
import StackMachine.Binary.Shortest
import StackMachine.Proofs.DecimalReading

/-!
# The shortest decimal of a number

The search for the shortest decimal goes through finer and finer grids and stops where the decimal next to
the number, or the one on its other side, is rounded back to it. Whatever it stops at reads back. For a
number with an odd significand the other side is never needed, because what is rounded to such a number
reaches equally far on both sides.

* **`Binary.shortestFrom_cases`**: where the search stops.
* **`Binary.rounded_shortest`**: the shortest decimal reads back.
* **`Binary.nearestDigits_near`**, **`Binary.nearestDigits_nearest`**: the decimal next to a number.
* **`Binary.shortest_of_odd`**: the shortest decimal of a number with an odd significand.
-/

namespace StackMachine.Binary

variable {fmt : Format} {c u : Nat} {e : Int}

/-! ## One grid -/

/-- The units that a row of digits stands for. -/
def Digits.units (fmt : Format) (ds : Digits) : ℚ :=
  ds.coefficient * 10 ^ ds.exponent * 2 ^ fmt.scale

/-- The test for reading back is rounding the decimal that it tests, and comparing. -/
theorem readsBack_iff :
    readsBack fmt u c e = true ↔ fmt.rounded (c * 10 ^ e * 2 ^ fmt.scale) = u := by
  rw [← Format.nearest_scaleByTen]
  exact beq_iff_eq

/-- The multiple of a power of ten that is nearest to a number of units. -/
def nearestDigits (fmt : Format) (u : Nat) (e : Int) : Nat :=
  roundDiv (scaleByTen u (2 ^ fmt.scale) (-e)).1 (scaleByTen u (2 ^ fmt.scale) (-e)).2

/-- What is found on a grid reads back, and it is the nearest decimal if that one reads back. The
two neighbours of the number on the grid are tried, the nearer one first. -/
theorem onGrid?_eq_some {ds : Digits} (h : onGrid? fmt u e = some ds) :
    ds.exponent = e ∧ readsBack fmt u ds.coefficient e = true
      ∧ (readsBack fmt u (nearestDigits fmt u e) e = true → ds.coefficient = nearestDigits fmt u e) := by
  unfold onGrid? at h
  dsimp only at h
  change (if readsBack fmt u (nearestDigits fmt u e) e = true then _ else _) = _ at h
  generalize (if roundDiv _ _ = _ then _ else _) = far at h
  split at h
  · next hnear =>
    rw [← Option.some.inj h]
    exact ⟨rfl, hnear, fun _ => rfl⟩
  · next hnear =>
    split at h
    · next hfar =>
      rw [← Option.some.inj h]
      exact ⟨rfl, hfar, fun h' => absurd h' hnear⟩
    · cases h

/-- Where nothing is found the nearest decimal does not read back, for it is one of those that
were tried. -/
theorem onGrid?_eq_none (h : onGrid? fmt u e = none) :
    ¬readsBack fmt u (nearestDigits fmt u e) e = true := by
  intro hnear
  unfold onGrid? at h
  dsimp only at h
  change (if readsBack fmt u (nearestDigits fmt u e) e = true then _ else _) = _ at h
  rw [if_pos hnear] at h
  cases h

/-! ## The search -/

/-- The search ends on the first grid where something is found, or with the exact value. Induction
on the recursion of `shortestFrom`. -/
theorem shortestFrom_cases (fmt : Format) (u tries : Nat) (e : Int) :
    (∃ k < tries, onGrid? fmt u (e - k) = some (shortestFrom fmt u tries e)
      ∧ ∀ j < k, onGrid? fmt u (e - j) = none)
    ∨ shortestFrom fmt u tries e = ⟨u * 5 ^ fmt.scale, -(fmt.scale : Int)⟩
      ∧ ∀ j < tries, onGrid? fmt u (e - j) = none := by
  fun_induction shortestFrom fmt u tries e with
  | case1 e => exact .inr ⟨rfl, fun j hj => absurd hj (Nat.not_lt_zero j)⟩
  | case2 tries e ds hfound =>
    refine .inl ⟨0, Nat.succ_pos tries, ?_, fun j hj => absurd hj (Nat.not_lt_zero j)⟩
    rw [Nat.cast_zero, sub_zero, hfound]
  | case3 tries e hnone ih =>
    -- the grids that are left are those of the search from the next grid on
    have hskip (k : Nat) (h : ∀ j < k, onGrid? fmt u (e - 1 - j) = none) :
        ∀ j < k + 1, onGrid? fmt u (e - j) = none := by
      intro j hj
      cases j with
      | zero => rw [Nat.cast_zero, sub_zero, hnone]
      | succ j =>
        rw [show e - (j + 1 : Nat) = e - 1 - j by omega]
        exact h j (by omega)
    rcases ih with ⟨k, hk, hfound, hfirst⟩ | ⟨hexact, hall⟩
    · refine .inl ⟨k + 1, by omega, ?_, hskip k hfirst⟩
      rw [show e - (k + 1 : Nat) = e - 1 - k by omega, hfound]
    · exact .inr ⟨hexact, hskip tries hall⟩

/-- The exact value as a row of digits: a power of two is divided out by multiplying with a power
of five. -/
theorem units_exact (fmt : Format) (u : Nat) :
    Digits.units fmt ⟨u * 5 ^ fmt.scale, -(fmt.scale : Int)⟩ = u := by
  have hten : (10 : ℚ) ^ fmt.scale = 5 ^ fmt.scale * 2 ^ fmt.scale := by
    rw [← mul_pow]
    norm_num
  rw [Digits.units, zpow_neg, zpow_natCast, hten]
  push_cast
  field_simp

/-- **The shortest decimal reads back.** What is found on a grid has been tested, and the exact
value is rounded to itself. -/
theorem rounded_shortest (hp : 0 < fmt.precision) (hu : fmt.Spaced u) :
    fmt.rounded ((shortest fmt u).units fmt) = u := by
  rcases shortestFrom_cases fmt u fmt.precision (leadingExponent u (2 ^ fmt.scale)) with
    ⟨k, -, hfound, -⟩ | ⟨hexact, -⟩
  · obtain ⟨hexponent, hread, -⟩ := onGrid?_eq_some hfound
    rw [← hexponent] at hread
    exact readsBack_iff.mp hread
  · rw [shortest, Nat.pow_eq, hexact, units_exact]
    exact Format.rounded_self hp hu

/-! ## The nearest decimal on a grid -/

theorem step_pos (fmt : Format) (e : Int) : (0 : ℚ) < 10 ^ e * 2 ^ fmt.scale :=
  mul_pos (ten_zpow_pos e) (by positivity)

/-- The quotient that the nearest decimal is rounded from, times the step of the grid, is the
number. -/
theorem quotient_nearestDigits (fmt : Format) (u : Nat) (e : Int) :
    ((scaleByTen u (2 ^ fmt.scale) (-e)).1 : ℚ) / (scaleByTen u (2 ^ fmt.scale) (-e)).2
      * (10 ^ e * 2 ^ fmt.scale) = u := by
  have hten : (10 : ℚ) ^ e ≠ 0 := (ten_zpow_pos e).ne'
  rw [scaleByTen_eq, zpow_neg]
  push_cast
  field_simp

/-- Distances on a grid are counted in steps of it, so nearest on the grid is rounding to a whole
number of steps. -/
theorem abs_sub_grid (fmt : Format) (u : Nat) (e : Int) (k : Nat) :
    |(u : ℚ) - k * (10 ^ e * 2 ^ fmt.scale)|
      = |((scaleByTen u (2 ^ fmt.scale) (-e)).1 : ℚ) / (scaleByTen u (2 ^ fmt.scale) (-e)).2 - k|
        * (10 ^ e * 2 ^ fmt.scale) := by
  nth_rw 1 [← quotient_nearestDigits fmt u e]
  rw [← sub_mul, abs_mul, abs_of_pos (step_pos fmt e)]

/-- **The nearest decimal is at most half a step away.** So on a grid with steps of less than a
gap it reads back. -/
theorem nearestDigits_near (fmt : Format) (u : Nat) (e : Int) :
    |(u : ℚ) - nearestDigits fmt u e * (10 ^ e * 2 ^ fmt.scale)| ≤ 10 ^ e * 2 ^ fmt.scale / 2 := by
  have hden := scaleByTen_pos u (Nat.two_pow_pos fmt.scale).ne' (-e)
  have hhalf := roundDiv_near (scaleByTen u (2 ^ fmt.scale) (-e)).1 hden
  rw [abs_sub_grid]
  calc |((scaleByTen u (2 ^ fmt.scale) (-e)).1 : ℚ) / (scaleByTen u (2 ^ fmt.scale) (-e)).2
          - nearestDigits fmt u e| * (10 ^ e * 2 ^ fmt.scale)
      ≤ 1 / 2 * (10 ^ e * 2 ^ fmt.scale) := by
        apply mul_le_mul_of_nonneg_right _ (step_pos fmt e).le
        exact hhalf.elim le_of_lt fun h => h.1.le
    _ = 10 ^ e * 2 ^ fmt.scale / 2 := by ring

/-- **No decimal on the grid is nearer**, so if any reads back within half a gap the nearest does.
-/
theorem nearestDigits_nearest (fmt : Format) (u : Nat) (e : Int) (k : Nat) :
    |(u : ℚ) - nearestDigits fmt u e * (10 ^ e * 2 ^ fmt.scale)|
      ≤ |(u : ℚ) - k * (10 ^ e * 2 ^ fmt.scale)| := by
  have hden := scaleByTen_pos u (Nat.two_pow_pos fmt.scale).ne' (-e)
  rw [abs_sub_grid, abs_sub_grid]
  exact mul_le_mul_of_nonneg_right (roundDiv_nearest _ hden k).1 (step_pos fmt e).le

/-- The nearest decimal does not exceed a multiple that the number does not exceed. It bounds the
digits of what is found. -/
theorem nearestDigits_le {k : Nat} (h : (u : ℚ) ≤ k * (10 ^ e * 2 ^ fmt.scale)) :
    nearestDigits fmt u e ≤ k := by
  have hden := scaleByTen_pos u (Nat.two_pow_pos fmt.scale).ne' (-e)
  have hden' : (0 : ℚ) < (scaleByTen u (2 ^ fmt.scale) (-e)).2 := by exact_mod_cast hden
  rw [← quotient_nearestDigits fmt u e, mul_le_mul_iff_of_pos_right (step_pos fmt e), div_le_iff₀ hden'] at h
  exact roundDiv_le hden (by exact_mod_cast h)

/-! ## Odd significands -/

section

variable (hp : 2 ≤ fmt.precision) (hu : fmt.Spaced u) (hodd : Odd (fmt.significand u))

include hp hu hodd

/-- What reads back is less than half a gap away. The significand is odd, so half a gap itself is
rounded away from it. -/
theorem readsBack_iff_of_odd :
    readsBack fmt u c e = true ↔ |(u : ℚ) - c * (10 ^ e * 2 ^ fmt.scale)| < fmt.spacing u / 2 := by
  have hnonneg : (0 : ℚ) ≤ c * 10 ^ e * 2 ^ fmt.scale := by positivity
  rw [readsBack_iff, Format.rounded_eq_iff_of_odd hp hu hodd hnonneg, abs_sub_comm, mul_assoc]

/-- **The shortest decimal is the nearest one** on its grid, and the grid is no finer than one whose steps
are smaller than the gap. -/
theorem shortest_of_odd {k : Nat} (hk : k < fmt.precision)
    (hfine : 10 ^ (leadingExponent u (2 ^ fmt.scale) - k) * 2 ^ fmt.scale < (fmt.spacing u : ℚ)) :
    ∃ j ≤ k, shortest fmt u = ⟨nearestDigits fmt u (leadingExponent u (2 ^ fmt.scale) - j),
      leadingExponent u (2 ^ fmt.scale) - j⟩ := by
  -- on the last grid the nearest decimal is less than half a gap away, so it reads back
  have hstop : ¬onGrid? fmt u (leadingExponent u (2 ^ fmt.scale) - k) = none := by
    intro hnone
    apply onGrid?_eq_none hnone
    rw [readsBack_iff_of_odd hp hu hodd]
    have hnear := nearestDigits_near fmt u (leadingExponent u (2 ^ fmt.scale) - k)
    linarith
  rcases shortestFrom_cases fmt u fmt.precision (leadingExponent u (2 ^ fmt.scale)) with
    ⟨j, hj, hfound, hfirst⟩ | ⟨-, hall⟩
  · obtain ⟨hexponent, hread, hnearest⟩ := onGrid?_eq_some hfound
    refine ⟨j, ?_, ?_⟩
    · by_contra hlt
      exact hstop (hfirst k (by omega))
    · -- what reads back is no nearer than the nearest decimal
      rw [readsBack_iff_of_odd hp hu hodd] at hread hnearest
      have hcoefficient := hnearest ((nearestDigits_nearest fmt u _ _).trans_lt hread)
      rw [← hcoefficient, ← hexponent]
      rfl
  · exact absurd (hall k hk) hstop

end

end StackMachine.Binary
