import Mathlib
import StackMachine.Proofs.Quantities

/-!
# Rounding in a decimal context

A context holds a rational if it needs no more digits than the precision and no exponents out of range.
Rounding leaves exactly these rationals alone, and it says of every other one that it was not exact.

* **`leadingExponent_eq_log`**: the place of the leading digit of a quotient.
* **`Decimal.Context.Holds`**: the rationals of a context.
* **`Decimal.Context.holds_iff`**: they are the multiples of the place at which they would be rounded.
* **`Decimal.Context.round_faithful`**: what rounding does to them and to the others.
-/

namespace StackMachine

section

variable {num den : Nat} {r : ℚ}

/-! ## The leading digit -/

/-- Scaling multiplies the numerator or the denominator, depending on the sign of the shift, and
the quotient by the power of ten in any case. -/
theorem scaleByTen_eq (num den : Nat) (shift : Int) :
    ((scaleByTen num den shift).1 : ℚ) / (scaleByTen num den shift).2
      = (num : ℚ) / den * 10 ^ shift := by
  unfold scaleByTen
  split
  · next h =>
    obtain ⟨k, rfl⟩ := Int.eq_ofNat_of_zero_le h
    simp
    ring
  · next h =>
    obtain ⟨k, hk⟩ := Int.eq_ofNat_of_zero_le (by omega : 0 ≤ -shift)
    rw [← neg_neg shift, hk]
    simp
    ring

theorem scaleByTen_pos (num : Nat) (hd : den ≠ 0) (shift : Int) :
    0 < (scaleByTen num den shift).2 := by
  unfold scaleByTen
  split
  · exact Nat.pos_of_ne_zero hd
  · exact Nat.mul_pos (Nat.pos_of_ne_zero hd) (Nat.pow_pos (by decide))

/-- The numbers of digits leave two places for the leading digit of a quotient. Which one it is
has to be found by a comparison. -/
theorem quotient_bounds (hn : num ≠ 0) (hd : den ≠ 0) :
    (10 : ℚ) ^ ((digitCount num : Int) - digitCount den - 1) ≤ num / den
      ∧ (num : ℚ) / den < 10 ^ ((digitCount num : Int) - digitCount den + 1) := by
  have hden : (0 : ℚ) < den := by exact_mod_cast Nat.pos_of_ne_zero hd
  obtain ⟨hnlow, hnhigh⟩ := digitCount_bounds hn
  obtain ⟨hdlow, hdhigh⟩ := digitCount_bounds hd
  -- the smallest numerator over the largest denominator, and the other way round
  constructor
  · rw [le_div_iff₀ hden]
    calc (10 : ℚ) ^ ((digitCount num : Int) - digitCount den - 1) * den
        ≤ 10 ^ ((digitCount num : Int) - digitCount den - 1) * 10 ^ (digitCount den : Int) :=
          mul_le_mul_of_nonneg_left hdhigh.le (ten_zpow_pos _).le
      _ = 10 ^ ((digitCount num : Int) - 1) := by
          rw [← zpow_add₀ (by norm_num)]
          congr 1
          ring
      _ ≤ num := hnlow
  · rw [div_lt_iff₀ hden]
    calc (num : ℚ) < 10 ^ (digitCount num : Int) := hnhigh
      _ = 10 ^ ((digitCount num : Int) - digitCount den + 1) * 10 ^ ((digitCount den : Int) - 1) := by
          rw [← zpow_add₀ (by norm_num)]
          congr 1
          ring
      _ ≤ 10 ^ ((digitCount num : Int) - digitCount den + 1) * den :=
          mul_le_mul_of_nonneg_left hdlow (ten_zpow_pos _).le

/-- **The place of the leading digit of a quotient**, which is computed without a rational. -/
theorem leadingExponent_eq_log (hn : num ≠ 0) (hd : den ≠ 0) :
    leadingExponent num den = Int.log 10 ((num : ℚ) / den) := by
  obtain ⟨hlow, hhigh⟩ := quotient_bounds hn hd
  have hscaled := scaleByTen_eq num den (-((digitCount num : Int) - digitCount den))
  have hpos := scaleByTen_pos num hd (-((digitCount num : Int) - digitCount den))
  rw [leadingExponent]
  generalize scaleByTen num den (-((digitCount num : Int) - digitCount den)) = t at hscaled hpos
  generalize (digitCount num : Int) - digitCount den = e at *
  -- the comparison that decides between the two places is one of rationals
  have hcompare : t.2 ≤ t.1 ↔ (10 : ℚ) ^ e ≤ num / den := by
    have hpos' : (0 : ℚ) < t.2 := by exact_mod_cast hpos
    rw [zpow_neg, ← div_eq_mul_inv] at hscaled
    rw [← one_le_div (ten_zpow_pos e), ← hscaled, one_le_div hpos', Nat.cast_le]
  symm
  show _ = if t.2 ≤ t.1 then e else e - 1
  split
  · next h => exact log_ten_eq (hcompare.mp h) hhigh
  · next h =>
    apply log_ten_eq hlow
    rw [sub_add_cancel]
    exact lt_of_not_ge fun hge => h (hcompare.mpr hge)

end

/-! ## What a context holds -/

namespace Decimal

/-- The outcome is a decimal with as many digits as the precision allows, it stands for the rational, and
no condition has arisen. -/
structure Outcome.IsExact (o : Outcome) (ctx : Context) (r : ℚ) : Prop where
  quantity : o.value.quantity = .rational r
  digits : ∃ negative c e, o.value = .finite negative c e ∧ digitCount c ≤ ctx.precision
  conditions : o.conditions = []

namespace Context

variable {ctx : Context} {r : ℚ}

/-- The rational is zero, or a coefficient of the precision with a power of ten, and neither its first
nor its last digit is out of range. -/
def Holds (ctx : Context) (r : ℚ) : Prop :=
  r = 0 ∨ ∃ c q : Int, r = c * 10 ^ q ∧ |c| < 10 ^ ctx.precision ∧ ctx.tiny ≤ q
    ∧ Int.log 10 |r| ≤ maxExponent

/-- The outcome is exact if the context holds the rational, and otherwise it tells that it is not. -/
inductive Faithful (ctx : Context) (o : Outcome) (r : ℚ) : Prop where
  | exact (holds : ctx.Holds r) (isExact : o.IsExact ctx r)
  | inexact (not_holds : ¬ctx.Holds r) (mem : .inexact ∈ o.conditions)

/-- The place at which a rational is rounded. -/
def place (ctx : Context) (r : ℚ) : Int :=
  max (Int.log 10 |r| - ctx.precision + 1) ctx.tiny

/-- A multiple of the place has no more digits than the precision, for the place is chosen by the
leading digit. -/
theorem abs_lt_of_place_le {c q : Int} (hr : r = c * 10 ^ q) (hq : ctx.place r ≤ q) :
    |c| < 10 ^ ctx.precision := by
  have hlog : Int.log 10 |r| + 1 ≤ ctx.precision + q := by
    have := le_max_left (Int.log 10 |r| - ctx.precision + 1) ctx.tiny
    unfold place at hq
    omega
  have habs : |(c : ℚ)| * 10 ^ q < 10 ^ ctx.precision * 10 ^ q := by
    calc |(c : ℚ)| * 10 ^ q = |r| := by rw [hr, abs_mul, abs_of_pos (ten_zpow_pos q)]
      _ < 10 ^ (Int.log 10 |r| + 1) := by
        exact_mod_cast Int.lt_zpow_succ_log_self (by decide : 1 < 10) |r|
      _ ≤ 10 ^ ((ctx.precision : Int) + q) := zpow_le_zpow_right₀ (by norm_num) hlog
      _ = 10 ^ ctx.precision * 10 ^ q := by rw [zpow_add₀ (by norm_num), zpow_natCast]
  exact_mod_cast lt_of_mul_lt_mul_right habs (ten_zpow_pos q).le

/-- What has digits of the precision only is a multiple of the place. The hypothesis on `tiny` is
for the numbers with so small a leading digit that their place stays where it is. -/
theorem place_le {c q : Int} (hne : r ≠ 0) (hr : r = c * 10 ^ q) (hc : |c| < 10 ^ ctx.precision)
    (hq : ctx.tiny ≤ q) : ctx.place r ≤ q := by
  have hlt : |r| < 10 ^ ((ctx.precision : Int) + q) := by
    rw [hr, abs_mul, abs_of_pos (ten_zpow_pos q), zpow_add₀ (by norm_num), zpow_natCast]
    exact mul_lt_mul_of_pos_right (by exact_mod_cast hc) (ten_zpow_pos q)
  have hlog := (Int.lt_zpow_iff_log_lt (by decide : 1 < 10) (abs_pos.mpr hne)).mp (by exact_mod_cast hlt)
  exact max_le (by omega) hq

/-- **A context holds the multiples of the place** at which it would round, if their leading digits are in
range. -/
theorem holds_iff (hne : r ≠ 0) :
    ctx.Holds r ↔ Int.log 10 |r| ≤ maxExponent ∧ ∃ c : Int, r = c * 10 ^ ctx.place r := by
  constructor
  · rintro (hzero | ⟨c, q, hr, hc, hq, hlog⟩)
    · exact absurd hzero hne
    · refine ⟨hlog, c * 10 ^ (q - ctx.place r).toNat, ?_⟩
      nth_rw 1 [hr]
      rw [ten_zpow_eq (place_le hne hr hc hq)]
      push_cast
      ring
  · rintro ⟨hlog, c, hr⟩
    exact .inr ⟨c, ctx.place r, hr, abs_lt_of_place_le hr le_rfl, le_max_right _ _, hlog⟩

/-! ## Rounding -/

end Context

/-- Stripping zeros off a coefficient changes how a number is written and not the number.
Induction on the recursion of `stripZeros`. -/
theorem stripZeros_spec (limit c : Nat) (e : Int) :
    ((stripZeros limit c e).1 : ℚ) * 10 ^ (stripZeros limit c e).2 = c * 10 ^ e
      ∧ (stripZeros limit c e).1 ≤ c := by
  fun_induction stripZeros limit c e with
  | case1 c e => exact ⟨rfl, Nat.le_refl c⟩
  | case2 limit c e hzero ih =>
    have htens : (c : ℚ) = (c / 10 : Nat) * 10 := by
      exact_mod_cast (Nat.div_mul_cancel (Nat.dvd_of_mod_eq_zero hzero)).symm
    refine ⟨?_, ih.2.trans (Nat.div_le_self c 10)⟩
    rw [ih.1, zpow_add_one₀ (by norm_num), htens]
    ring
  | case3 limit c e hzero => exact ⟨rfl, Nat.le_refl c⟩

namespace Context

variable {ctx : Context} {r : ℚ} {num den : Nat} {negative : Bool} {ideal : Int}

/-- A decimal of the rational with digits of the precision only. This is the form of every exact
outcome. -/
theorem isExact_finite {c : Nat} {e : Int} (hp : 0 < ctx.precision) (hr : r = signed negative c * 10 ^ e)
    (hc : c < 10 ^ ctx.precision) : Outcome.IsExact ⟨.finite negative c e, []⟩ ctx r :=
  ⟨by rw [hr]; rfl, ⟨negative, c, e, rfl, (digitCount_le_iff hp).mpr hc⟩, rfl⟩

/-- What is smaller than the place is no multiple of it, so the context cannot hold it. -/
theorem not_holds_of_log_lt (hne : r ≠ 0) (h : Int.log 10 |r| + 1 < ctx.place r) : ¬ctx.Holds r := by
  rw [holds_iff hne]
  rintro ⟨-, c, hr⟩
  have hc : c ≠ 0 := by
    rintro rfl
    exact hne (by rw [hr, Int.cast_zero, zero_mul])
  have hle : (10 : ℚ) ^ ctx.place r ≤ |r| := by
    nth_rw 2 [hr]
    exact ten_zpow_le_abs hc _
  have := (Int.zpow_le_iff_le_log (by decide : 1 < 10) (abs_pos.mpr hne)).mp (by exact_mod_cast hle)
  omega

/-- A quotient as a multiple of a place, whole or not. It brings the quotient into the form that
the rounding step computes with. -/
theorem quotient_eq (hr : r = signed negative num / den * 10 ^ ideal) (place : Int) :
    r = signed negative (scaleByTen num den (ideal - place)).1
      / (scaleByTen num den (ideal - place)).2 * 10 ^ place := by
  have hscaled := scaleByTen_eq num den (ideal - place)
  rw [zpow_sub₀ (by norm_num)] at hscaled
  have hplace := (ten_zpow_pos place).ne'
  rw [hr]
  cases negative with
  | false =>
    rw [signed_false, signed_false, Int.cast_natCast, Int.cast_natCast, hscaled]
    field_simp
  | true =>
    rw [signed_true, signed_true, Int.cast_neg, Int.cast_neg, Int.cast_natCast, Int.cast_natCast,
      neg_div, neg_div, hscaled]
    field_simp

section

variable {n d : Nat} {place : Int}

/-- A division without a rest is exact, so the quotient can be written with the whole number that
it is. -/
theorem eq_of_no_rest (hd : 0 < d) (hr : r = signed negative n / d * 10 ^ place) (hrest : n % d = 0) :
    r = signed negative (n / d) * 10 ^ place := by
  have hd' : (d : ℚ) ≠ 0 := by exact_mod_cast hd.ne'
  have hn : (signed negative n : ℚ) = signed negative (n / d) * d := by
    have := signed_mul negative (n / d) d
    rw [Nat.div_mul_cancel (Nat.dvd_of_mod_eq_zero hrest)] at this
    exact_mod_cast this
  rw [hr, hn, mul_div_cancel_right₀ _ hd']

/-- It is whole if and only if the division leaves no rest. So whether a context holds a rational
shows in the rest of one division. -/
theorem multiple_iff (hd : 0 < d) (hr : r = signed negative n / d * 10 ^ place) :
    (∃ c : Int, r = c * 10 ^ place) ↔ n % d = 0 := by
  constructor
  · rintro ⟨c, hc⟩
    have hd' : (d : ℚ) ≠ 0 := by exact_mod_cast hd.ne'
    have hquot : (signed negative n : ℚ) = c * d := by
      rw [← div_eq_iff hd']
      exact mul_right_cancel₀ (ten_zpow_pos place).ne' (hr.symm.trans hc)
    have hunits : signed negative n = c * d := by exact_mod_cast hquot
    have habs := congrArg Int.natAbs hunits
    rw [natAbs_signed, Int.natAbs_mul, Int.natAbs_natCast] at habs
    rw [habs]
    exact Nat.mul_mod_left _ _
  · exact fun hrest => ⟨_, eq_of_no_rest hd hr hrest⟩

/-- A whole multiple of the place, or of a higher one, is held and can be written out, if its
leading digit is in range. -/
theorem holds_of_place_le {c : Nat} (hr : r = signed negative c * 10 ^ place)
    (hplace : ctx.place r ≤ place) (hlog : Int.log 10 |r| ≤ maxExponent) :
    ctx.Holds r ∧ c < 10 ^ ctx.precision := by
  have hc := abs_lt_of_place_le hr hplace
  refine ⟨.inr ⟨_, place, hr, hc, (le_max_right _ _).trans hplace, hlog⟩, ?_⟩
  rw [Int.abs_eq_natAbs, natAbs_signed] at hc
  exact_mod_cast hc

end

/-- A coefficient that had to be rounded is told to be inexact, also where it overflows. -/
theorem inexact_mem_carried (c : Nat) (place : Int) :
    .inexact ∈ (ctx.carried negative c place).conditions := by
  unfold carried
  split_ifs <;> simp [overflowed]

theorem abs_quotient (hr : r = signed negative num / den * 10 ^ ideal) :
    |r| = num / den * 10 ^ ideal := by
  rw [hr, abs_mul, abs_div, abs_signed, Nat.abs_cast, abs_of_pos (ten_zpow_pos ideal)]

/-- The leading digit that `Context.round` computes with is that of the rational. -/
theorem log_abs_quotient (hn : num ≠ 0) (hd : den ≠ 0)
    (hr : r = signed negative num / den * 10 ^ ideal) :
    r ≠ 0 ∧ leadingExponent num den + ideal = Int.log 10 |r| := by
  have hden : (0 : ℚ) < den := by exact_mod_cast Nat.pos_of_ne_zero hd
  have hnum : (0 : ℚ) < num := by exact_mod_cast Nat.pos_of_ne_zero hn
  have hquot : (0 : ℚ) < num / den := div_pos hnum hden
  have habs := abs_quotient hr
  constructor
  · rw [← abs_pos, habs]
    exact mul_pos hquot (ten_zpow_pos ideal)
  · rw [habs, log_mul_ten_zpow hquot, leadingExponent_eq_log hn hd]

/-- **Rounding is faithful**: exact where the context can hold the rational, and otherwise told to
be inexact or out of range. The cases are those of `Context.round`. -/
theorem round_faithful (hp : 0 < ctx.precision) (hd : den ≠ 0)
    (hr : r = signed negative num / den * 10 ^ ideal) :
    ctx.Faithful (ctx.round negative num den ideal) r := by
  by_cases hn : num = 0
  · have hzero : r = 0 := by
      rw [hr, hn]
      cases negative <;> simp
    refine .exact (.inl hzero) ?_
    rw [round, if_pos hn, zero]
    apply isExact_finite hp
    · rw [hzero]
      cases negative <;> simp
    · positivity
  · obtain ⟨hne, hlog⟩ := log_abs_quotient hn hd hr
    have hplace : max (Int.log 10 |r| - ctx.precision + 1) ctx.tiny = ctx.place r := rfl
    have hscaled := quotient_eq hr (ctx.place r)
    have hpos := scaleByTen_pos num hd (ideal - ctx.place r)
    simp only [round, if_neg hn, hlog, hplace]
    generalize scaleByTen num den (ideal - ctx.place r) = t at hscaled hpos
    split_ifs with hover hexact hunder hrest
    · -- too large: the context holds nothing with such a leading digit
      refine .inexact (fun hholds => ?_) (by simp [overflowed])
      have := ((holds_iff hne).mp hholds).1
      omega
    · -- the quotient is whole at the ideal exponent
      have hwhole := eq_of_no_rest (Nat.pos_of_ne_zero hd) hr hexact.2
      obtain ⟨hholds, hc⟩ := holds_of_place_le hwhole hexact.1 (not_lt.mp hover)
      exact .exact hholds (isExact_finite hp hwhole hc)
    · exact .inexact (not_holds_of_log_lt hne hunder) (by simp)
    · -- the zeros at the end are given back to the exponent, which changes neither value nor length
      have hwhole := eq_of_no_rest hpos hscaled hrest
      obtain ⟨hholds, hc⟩ := holds_of_place_le hwhole le_rfl (not_lt.mp hover)
      obtain ⟨hstrip, hle⟩ := stripZeros_spec (ideal - ctx.place r).toNat (t.1 / t.2) (ctx.place r)
      refine .exact hholds (isExact_finite hp ?_ (hle.trans_lt hc))
      nth_rw 1 [hwhole]
      exact (signed_mul_eq_iff (ten_zpow_pos _) (ten_zpow_pos _)).mpr ⟨hstrip.symm, .inr rfl⟩
    · -- what the context holds is a multiple of the place, which leaves no rest
      refine .inexact (fun hholds => hrest ?_) (inexact_mem_carried _ _)
      exact (multiple_iff hpos hscaled).mp ((holds_iff hne).mp hholds).2

end Context

end Decimal

end StackMachine
