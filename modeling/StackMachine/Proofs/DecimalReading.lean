import Mathlib
import StackMachine.Proofs.DecimalRounding
import StackMachine.Proofs.NumberNeighbours

/-!
# Decimals read as binary numbers

A decimal is read as the number that it is rounded to. The magnitudes that are settled without dividing,
because the leading digit is too far up or too far down, are settled as the division would have done.

* **`Binary.rounded_eq_zero_of_adjusted`**, **`Binary.bound_le_rounded_of_adjusted`**: the leading digit.
* **`Binary.ofDecimal_eq`**, **`Binary.ofDecimal_of_rounded`**: what a decimal is read as.
* **`Binary.isNearest_ofDecimal`**: it is the nearest number.
-/

namespace StackMachine

/-! ## Powers of ten and of two -/

theorem two_zpow_le_ten_zpow {e : Int} (he : 0 ≤ e) : (2 : ℚ) ^ (3 * e) ≤ 10 ^ e := by
  obtain ⟨k, rfl⟩ := Int.eq_ofNat_of_zero_le he
  rw [zpow_mul, zpow_natCast, zpow_natCast]
  exact pow_le_pow_left₀ (by norm_num) (by norm_num) k

theorem ten_zpow_le_two_zpow {e : Int} (he : e ≤ 0) : (10 : ℚ) ^ e ≤ 2 ^ (3 * e) := by
  have hpos : (0 : ℚ) < 2 ^ (3 * -e) := zpow_pos two_pos _
  have hinv := inv_anti₀ hpos (two_zpow_le_ten_zpow (by omega : 0 ≤ -e))
  rwa [← zpow_neg, ← zpow_neg, neg_neg, mul_neg, neg_neg] at hinv

namespace Format

variable {fmt : Format} {x : ℚ}

/-- What is less than half a unit is rounded to zero, which every format has and which is nearer
than any other number. -/
theorem rounded_eq_zero (hp : 2 ≤ fmt.precision) (hx : 0 ≤ x) (h : 2 * x < 1) : fmt.rounded x = 0 := by
  have hnear := (rounded_nearest hp hx (spacing_dvd fmt.representable_zero)).1
  by_contra hne
  have hone : (1 : ℚ) ≤ fmt.rounded x := by exact_mod_cast Nat.pos_of_ne_zero hne
  rw [Nat.cast_zero, abs_sub_le_iff_middle_le (by linarith)] at hnear
  linarith

/-- The rounded quotient that reading a decimal leads to, told of the rational that the decimal
stands for. -/
theorem nearest_scaleByTen (fmt : Format) (c : Nat) (e : Int) :
    fmt.nearest ((scaleByTen c 1 e).1 * 2 ^ fmt.scale) (scaleByTen c 1 e).2
      = fmt.rounded (c * 10 ^ e * 2 ^ fmt.scale) := by
  have hscaled := scaleByTen_eq c 1 e
  rw [← rounded_div fmt _ (scaleByTen_pos c one_ne_zero e)]
  congr 1
  rw [Nat.cast_mul, mul_div_right_comm, hscaled]
  simp

end Format

namespace Binary

variable {fmt : Format} {c u : Nat} {e : Int}

/-! ## What a decimal is read as -/

/-- A leading digit so far down that less than half a unit is left. Powers of ten are compared
with powers of eight, which is coarse and enough. -/
theorem rounded_eq_zero_of_adjusted (hp : 2 ≤ fmt.precision)
    (h : c = 0 ∨ 3 * (Decimal.adjusted c e + 1) < -(fmt.scale + 1 : Nat)) :
    fmt.rounded (c * 10 ^ e * 2 ^ fmt.scale) = 0 := by
  have hunit : (0 : ℚ) < 2 ^ fmt.scale := by positivity
  apply Format.rounded_eq_zero hp (by positivity)
  rcases Nat.eq_zero_or_pos c with rfl | hpos
  · simp
  · have hlead := h.resolve_left hpos.ne'
    rw [Decimal.adjusted_eq_log hpos.ne'] at hlead
    have hlt := Int.lt_zpow_succ_log_self (by decide : 1 < 10) ((c : ℚ) * 10 ^ e)
    generalize Int.log 10 ((c : ℚ) * 10 ^ e) = lead at hlead hlt
    -- the power above the leading digit is no larger than one of eight, and that one is tiny
    have hten : (10 : ℚ) ^ (lead + 1) ≤ 2 ^ (3 * (lead + 1)) := ten_zpow_le_two_zpow (by omega)
    have htwo : (2 : ℚ) ^ (3 * (lead + 1)) ≤ 2 ^ (-(fmt.scale : Int) - 2) :=
      zpow_le_zpow_right₀ one_le_two (by push_cast at hlead; omega)
    calc 2 * ((c : ℚ) * 10 ^ e * 2 ^ fmt.scale) < 2 * (2 ^ (-(fmt.scale : Int) - 2) * 2 ^ fmt.scale) := by
          have := mul_lt_mul_of_pos_right (hlt.trans_le (hten.trans htwo)) hunit
          linarith
      _ = 1 / 2 := by
          rw [zpow_sub₀ two_ne_zero, zpow_neg, zpow_natCast]
          field_simp
      _ < 1 := by norm_num

/-- A leading digit so far up that the bound is reached. Rounding does not bring it down again, as
the bound is a power of two. -/
theorem bound_le_rounded_of_adjusted (hp : 0 < fmt.precision) (hb : fmt.scale ≤ fmt.bound) (hc : c ≠ 0)
    (h : (fmt.bound : Int) < 3 * Decimal.adjusted c e + fmt.scale) :
    2 ^ fmt.bound ≤ fmt.rounded (c * 10 ^ e * 2 ^ fmt.scale) := by
  have hunit : (0 : ℚ) < 2 ^ fmt.scale := by positivity
  have hpos : (0 : ℚ) < c * 10 ^ e := mul_pos (by exact_mod_cast Nat.pos_of_ne_zero hc) (ten_zpow_pos e)
  -- the bound is a power of two, so rounding does not cross it from above
  apply Format.le_rounded hp (Format.spaced_two_pow hp _)
  rw [Decimal.adjusted_eq_log hc] at h
  have hlog := Int.zpow_log_le_self (by decide : 1 < 10) hpos
  generalize Int.log 10 ((c : ℚ) * 10 ^ e) = lead at h hlog
  have hten : (2 : ℚ) ^ (3 * lead) ≤ 10 ^ lead := two_zpow_le_ten_zpow (by omega)
  calc ((2 ^ fmt.bound : Nat) : ℚ) = 2 ^ ((fmt.bound : Int) - fmt.scale) * 2 ^ fmt.scale := by
        rw [zpow_sub₀ two_ne_zero, zpow_natCast, zpow_natCast, div_mul_cancel₀ _ hunit.ne']
        push_cast
        rfl
    _ ≤ 2 ^ (3 * lead) * 2 ^ fmt.scale := by
        gcongr
        · exact one_le_two
        · omega
    _ ≤ c * 10 ^ e * 2 ^ fmt.scale := by
        gcongr
        exact hten.trans (by exact_mod_cast hlog)

/-- **The magnitudes that are settled by the leading digit are settled rightly.** The shortcuts
for very small and very large exponents keep huge powers from being written out; what they answer
is what rounding the quotient would give. -/
theorem ofDecimal_eq (hp : 2 ≤ fmt.precision) (hb : fmt.scale ≤ fmt.bound) (negative : Bool) (c : Nat)
    (e : Int) :
    ofDecimal fmt negative c e
      = ofUnits fmt negative ((scaleByTen c 1 e).1 * 2 ^ fmt.scale) (scaleByTen c 1 e).2 := by
  unfold ofDecimal
  dsimp only
  split_ifs with hsmall hlarge
  · have hzero := rounded_eq_zero_of_adjusted hp hsmall
    rw [← Format.nearest_scaleByTen] at hzero
    simp only [ofUnits, hzero]
    rw [dif_pos fmt.representable_zero]
    rfl
  · have hle := bound_le_rounded_of_adjusted (by omega) hb (fun hc => hsmall (.inl hc)) hlarge
    rw [← Format.nearest_scaleByTen] at hle
    rw [ofUnits, dif_neg]
    exact fun hrep => absurd hrep.1 (Nat.not_lt.mpr hle)
  · rfl

/-- A decimal that is rounded to a number of the format is read as that number, with its sign. -/
theorem ofDecimal_of_rounded (hp : 2 ≤ fmt.precision) (hb : fmt.scale ≤ fmt.bound) (hu : fmt.Representable u)
    (h : fmt.rounded (c * 10 ^ e * 2 ^ fmt.scale) = u) (negative : Bool) :
    ofDecimal fmt negative c e = .finite negative u hu := by
  rw [← Format.nearest_scaleByTen] at h
  rw [ofDecimal_eq hp hb]
  simp only [ofUnits, h]
  rw [dif_pos hu]

/-- **A decimal is read as the number nearest to it**, unless it is too large. There is no second
rounding: the decimal is compared with the numbers of the format itself. -/
theorem isNearest_ofDecimal (hp : 2 ≤ fmt.precision) (hb : fmt.scale ≤ fmt.bound) {negative : Bool}
    (hfinite : (ofDecimal fmt negative c e).isFinite = true) :
    (ofDecimal fmt negative c e).IsNearest (signed negative c * 10 ^ e) := by
  rw [ofDecimal_eq hp hb] at hfinite ⊢
  have hnearest := isNearest_ofUnits hp (scaleByTen_pos c one_ne_zero e) negative hfinite
  have hunit : (2 : ℚ) ^ fmt.scale ≠ 0 := by positivity
  have hscaled := scaleByTen_eq c 1 e
  have hvalue : (signed negative ((scaleByTen c 1 e).1 * 2 ^ fmt.scale) : ℚ) / (scaleByTen c 1 e).2
      / 2 ^ fmt.scale = signed negative c * 10 ^ e := by
    obtain ⟨σ, -, hsign⟩ := exists_sign negative
    rw [hsign, hsign, mul_assoc, ← div_one (c : ℚ), ← Nat.cast_one (R := ℚ), ← hscaled]
    push_cast
    field_simp
  rwa [hvalue] at hnearest

end Binary

end StackMachine
