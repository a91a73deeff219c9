import Mathlib
import StackMachine.Proofs.ExactDecimals

/-!
# Decimal quotients are correctly rounded

A quotient of decimals is computed on coefficients of any length, and it is rounded once. What it is
rounded to can be told by the exact rational quotient alone: the nearest multiple of the place that a
context leaves for the last digit, a half going to the even multiple. Rounding up can add a digit. Then
the result is a power of ten, and only then can the leading digit move.

* **`halfEven`**, **`roundAt`**, **`significant`**: rationals rounded to whole numbers, at a place, and to a
  number of digits.
* **`roundAt_quotient`**: they are what rounded quotients of natural numbers stand for.
* **`Decimal.Context.round_rounds`**: what rounding in a context gives, for every rational.
* **`Value.decimal_division_rounded`**: the headline.
-/

namespace StackMachine

/-! ## Rounded rationals -/

/-- The whole number nearest to a rational; a half goes to the even neighbour. -/
def halfEven (r : ℚ) : Int :=
  if r - ⌊r⌋ < 1 / 2 then ⌊r⌋
  else if 1 / 2 < r - ⌊r⌋ then ⌊r⌋ + 1
  else if Even ⌊r⌋ then ⌊r⌋ else ⌊r⌋ + 1

/-- The multiple of `10 ^ place` nearest to a rational. -/
def roundAt (place : Int) (r : ℚ) : ℚ :=
  halfEven (r / 10 ^ place) * 10 ^ place

/-- A rational rounded to a number of significant digits: the last of them stands `digits - 1` places
behind the leading one. -/
def significant (digits : Nat) (r : ℚ) : ℚ :=
  roundAt (Int.log 10 |r| + 1 - digits) r

/-- There is no other whole number as near, or as near and even. Every rounding below is
recognised by this. -/
theorem halfEven_eq {r : ℚ} {n : Int} (h : |r - n| < 1 / 2 ∨ |r - n| = 1 / 2 ∧ Even n) :
    halfEven r = n := by
  have hle : |r - n| ≤ 1 / 2 := h.elim le_of_lt fun h => h.1.le
  obtain ⟨hlow, hhigh⟩ := abs_le.mp hle
  have hfloor := Int.floor_le r
  have hceil := Int.lt_floor_add_one r
  -- the number is the floor or the next one
  have hn : n = ⌊r⌋ ∨ n = ⌊r⌋ + 1 := by
    have hge : ⌊r⌋ < n + 1 := by
      have : (⌊r⌋ : ℚ) < (n + 1 : Int) := by push_cast; linarith
      exact_mod_cast this
    have hlt : n < ⌊r⌋ + 2 := by
      have : (n : ℚ) < (⌊r⌋ + 2 : Int) := by push_cast; linarith
      exact_mod_cast this
    omega
  unfold halfEven
  rcases hn with rfl | hn
  · rw [abs_of_nonneg (by linarith)] at h
    rcases h with hlt | ⟨heq, heven⟩
    · rw [if_pos hlt]
    · rw [if_neg (by linarith), if_neg (by linarith), if_pos heven]
  · have hcast : (n : ℚ) = ⌊r⌋ + 1 := by exact_mod_cast hn
    rw [abs_of_nonpos (by linarith), hcast] at h
    rcases h with hlt | ⟨heq, heven⟩
    · rw [if_neg (by linarith), if_pos (by linarith), hn]
    · have hodd : ¬Even ⌊r⌋ := by
        rw [hn, Int.even_add_one] at heven
        exact heven
      rw [if_neg (by linarith), if_neg (by linarith), if_neg hodd, hn]

theorem abs_sub_halfEven_le (r : ℚ) : |r - halfEven r| ≤ 1 / 2 := by
  have hfloor := Int.floor_le r
  have hceil := Int.lt_floor_add_one r
  unfold halfEven
  rw [abs_le]
  split_ifs <;> push_cast <;> constructor <;> linarith

theorem halfEven_intCast (n : Int) : halfEven n = n :=
  halfEven_eq (.inl (by rw [sub_self, abs_zero]; norm_num))

/-- **Rounded quotients of natural numbers**, with any sign. The magnitude is rounded to the
nearest and a half to the even neighbour, so the sign can be put on before or after. -/
theorem halfEven_quotient (negative : Bool) (num : Nat) {den : Nat} (hd : 0 < den) :
    halfEven ((signed negative num : ℚ) / den) = signed negative (roundDiv num den) := by
  obtain ⟨σ, hσ, hsign⟩ := Binary.exists_sign negative
  have hdistance : |(signed negative num : ℚ) / den - signed negative (roundDiv num den)|
      = |(num : ℚ) / den - roundDiv num den| := by
    rw [hsign, hsign, mul_div_assoc, ← mul_sub, abs_mul, hσ, one_mul]
  apply halfEven_eq
  rw [hdistance]
  rcases roundDiv_near num hd with hlt | ⟨heq, heven⟩
  · exact .inl hlt
  · refine .inr ⟨heq, ?_⟩
    rw [← Int.natAbs_even, natAbs_signed]
    exact heven

section

variable {r : ℚ} {place : Int}

/-- A rational is moved by half a place at most, whatever the place is. -/
theorem abs_sub_roundAt_le (place : Int) (r : ℚ) : |r - roundAt place r| ≤ 10 ^ place / 2 := by
  have hpos := ten_zpow_pos place
  have hunits : r - roundAt place r = (r / 10 ^ place - halfEven (r / 10 ^ place)) * 10 ^ place := by
    rw [sub_mul, div_mul_cancel₀ _ hpos.ne', roundAt]
  rw [hunits, abs_mul, abs_of_pos hpos]
  have := mul_le_mul_of_nonneg_right (abs_sub_halfEven_le (r / 10 ^ place)) hpos.le
  linarith

/-- Rounding at a place for a rational that is given as a quotient times the place, which is the
form that contexts compute with. -/
theorem roundAt_quotient {negative : Bool} {n d : Nat} (hd : 0 < d)
    (hr : r = signed negative n / d * 10 ^ place) :
    roundAt place r = signed negative (roundDiv n d) * 10 ^ place := by
  rw [roundAt, hr, mul_div_cancel_right₀ _ (ten_zpow_pos place).ne', halfEven_quotient negative n hd]

/-- A multiple of the place, or of a higher one, is not changed, as nothing of it lies below the
place. -/
theorem roundAt_of_multiple {c e : Int} (hr : r = c * 10 ^ e) (h : place ≤ e) : roundAt place r = r := by
  have hscaled : r / 10 ^ place = (c * 10 ^ (e - place).toNat : Int) := by
    rw [hr, ten_zpow_eq h, ← mul_assoc, mul_div_cancel_right₀ _ (ten_zpow_pos place).ne']
    push_cast
    rfl
  rw [roundAt, hscaled, halfEven_intCast, ← hscaled, div_mul_cancel₀ _ (ten_zpow_pos place).ne']

/-- What is less than half the place is rounded to zero, the nearest of its multiples. -/
theorem roundAt_eq_zero (h : |r| < 10 ^ place / 2) : roundAt place r = 0 := by
  have hpos := ten_zpow_pos place
  have hsmall : |r / 10 ^ place - (0 : Int)| < 1 / 2 := by
    rw [Int.cast_zero, sub_zero, abs_div, abs_of_pos hpos, div_lt_iff₀ hpos]
    linarith
  rw [roundAt, halfEven_eq (.inl hsmall), Int.cast_zero, zero_mul]

/-- **What has no more digits is not changed.** The coefficient need not end in a digit other than
zero. -/
theorem significant_of_short {digits : Nat} {c e : Int} (hne : r ≠ 0) (hr : r = c * 10 ^ e)
    (hc : |c| < 10 ^ digits) : significant digits r = r := by
  apply roundAt_of_multiple hr
  have hlt : |r| < 10 ^ ((digits : Int) + e) := by
    rw [hr, abs_mul, abs_of_pos (ten_zpow_pos e), zpow_add₀ (by norm_num), zpow_natCast]
    exact mul_lt_mul_of_pos_right (by exact_mod_cast hc) (ten_zpow_pos e)
  have hlog := (Int.lt_zpow_iff_log_lt (by decide : 1 < 10) (abs_pos.mpr hne)).mp (by exact_mod_cast hlt)
  omega

/-- A bound on the leading digit that zero meets too. The logarithm of zero is zero, hence the
hypothesis on the bound. -/
theorem log_abs_lt {p : Int} (hp : 0 < p) (h : |r| < 10 ^ p) : Int.log 10 |r| < p := by
  rcases eq_or_ne r 0 with rfl | hne
  · rw [abs_zero, Int.log_zero_right]
    exact hp
  · exact (Int.lt_zpow_iff_log_lt (by decide : 1 < 10) (abs_pos.mpr hne)).mp (by exact_mod_cast h)

end

/-! ## Rounding in a context -/

namespace Decimal.Context

variable {ctx : Context} {r : ℚ} {num den : Nat} {negative : Bool} {ideal : Int}

/-- The rational that a context rounds to, unless it is too large. -/
def rounded (ctx : Context) (r : ℚ) : ℚ :=
  roundAt (ctx.place r) r

/-- An outcome is the rounded rational, with no other condition than inexactness, or else its leading
digit is beyond the largest exponent and it has overflowed. -/
inductive Rounds (ctx : Context) (o : Outcome) (r : ℚ) : Prop where
  | within (fits : Int.log 10 |ctx.rounded r| ≤ maxExponent)
      (quantity : o.value.quantity = .rational (ctx.rounded r))
      (conditions : o.conditions = [] ∨ o.conditions = [.inexact])
  | beyond (large : maxExponent < Int.log 10 |ctx.rounded r|)
      (conditions : o.conditions = [.overflow, .inexact])

theorem rounded_zero (ctx : Context) : ctx.rounded 0 = 0 :=
  roundAt_eq_zero (by rw [abs_zero]; exact half_pos (ten_zpow_pos _))

/-- The digits from the place on are enough for the whole rational. -/
theorem log_add_one_le (ctx : Context) (r : ℚ) : Int.log 10 |r| + 1 ≤ ctx.precision + ctx.place r := by
  have := le_max_left (Int.log 10 |r| - ctx.precision + 1) ctx.tiny
  unfold place
  omega

/-- The digits of a rational in range, one more included, end at the largest exponent. So a carry
is the only way for rounding to overflow. -/
theorem precision_add_place_le (h : Int.log 10 |r| ≤ maxExponent) :
    ctx.precision + ctx.place r ≤ maxExponent + 1 := by
  have hmax : ctx.place r ≤ maxExponent + 1 - ctx.precision := by
    apply max_le
    · omega
    · unfold tiny minExponent maxExponent
      omega
  omega

section

variable {n d : Nat}

/-- Rounding gives one digit more than the precision at most, and then a power of ten. Before
rounding the coefficient is below that power. -/
theorem roundDiv_le_pow (hd : 0 < d) (hr : r = signed negative n / d * 10 ^ ctx.place r) :
    roundDiv n d ≤ 10 ^ ctx.precision := by
  have hd' : (0 : ℚ) < d := by exact_mod_cast hd
  have hlt : (n : ℚ) / d * 10 ^ ctx.place r < 10 ^ ctx.precision * 10 ^ ctx.place r := by
    calc (n : ℚ) / d * 10 ^ ctx.place r = |r| := (abs_quotient hr).symm
      _ < 10 ^ (Int.log 10 |r| + 1) := by
        exact_mod_cast Int.lt_zpow_succ_log_self (by decide : 1 < 10) |r|
      _ ≤ 10 ^ ((ctx.precision : Int) + ctx.place r) :=
        zpow_le_zpow_right₀ (by norm_num) (log_add_one_le ctx r)
      _ = 10 ^ ctx.precision * 10 ^ ctx.place r := by rw [zpow_add₀ (by norm_num), zpow_natCast]
  have hquot := lt_of_mul_lt_mul_right hlt (ten_zpow_pos _).le
  rw [div_lt_iff₀ hd'] at hquot
  exact roundDiv_le hd (by exact_mod_cast hquot.le)

/-- Rounding does not take the leading digit away. A power of ten is a multiple of the place, and
rounding does not cross it. -/
theorem log_le_log_rounded (hne : r ≠ 0) (hd : 0 < d) (hr : r = signed negative n / d * 10 ^ ctx.place r)
    (h : ctx.place r ≤ Int.log 10 |r|) : Int.log 10 |r| ≤ Int.log 10 |ctx.rounded r| := by
  have hd' : (0 : ℚ) < d := by exact_mod_cast hd
  have hpower := ten_zpow_eq h
  have hlead : (10 : ℚ) ^ Int.log 10 |r| ≤ |r| := by
    exact_mod_cast Int.zpow_log_le_self (by decide : 1 < 10) (abs_pos.mpr hne)
  -- a whole power of ten is reached before rounding, so it is reached afterwards
  have hc : 10 ^ (Int.log 10 |r| - ctx.place r).toNat ≤ roundDiv n d := by
    apply le_roundDiv hd
    have hscaled := hlead.trans_eq (abs_quotient hr)
    rw [hpower] at hscaled
    have hquot := le_of_mul_le_mul_right hscaled (ten_zpow_pos _)
    rw [le_div_iff₀ hd'] at hquot
    exact_mod_cast hquot
  have hle : (10 : ℚ) ^ Int.log 10 |r| ≤ |ctx.rounded r| := by
    rw [rounded, roundAt_quotient hd hr, abs_mul, abs_signed, abs_of_pos (ten_zpow_pos _), hpower]
    exact mul_le_mul_of_nonneg_right (by exact_mod_cast hc) (ten_zpow_pos _).le
  have hpos : 0 < |ctx.rounded r| := (ten_zpow_pos _).trans_le hle
  exact (Int.zpow_le_iff_le_log (by decide : 1 < 10) hpos).mp (by exact_mod_cast hle)

/-- A coefficient that was rounded, and perhaps carried. If it has come to a digit more, the last
one is a zero and is dropped; what is left is the rounded rational or has overflowed. -/
theorem carried_rounds (hp : 0 < ctx.precision) (hd : 0 < d)
    (hr : r = signed negative n / d * 10 ^ ctx.place r) (hlog : Int.log 10 |r| ≤ maxExponent) :
    ctx.Rounds (ctx.carried negative (roundDiv n d) (ctx.place r)) r := by
  have hrounded : ctx.rounded r = signed negative (roundDiv n d) * 10 ^ ctx.place r :=
    roundAt_quotient hd hr
  have hle := roundDiv_le_pow hd hr
  generalize roundDiv n d = c at hrounded hle
  have habs : |ctx.rounded r| = c * 10 ^ ctx.place r := by
    rw [hrounded, abs_mul, abs_signed, abs_of_pos (ten_zpow_pos _)]
  unfold carried
  by_cases hcarry : c = Nat.pow 10 ctx.precision
  · rw [if_pos hcarry]
    -- the rounded rational is a power of ten, one digit longer than the precision
    have hpower : |ctx.rounded r| = 10 ^ ((ctx.precision : Int) + ctx.place r) := by
      rw [habs, hcarry, Nat.pow_eq, Nat.cast_pow, zpow_add₀ (by norm_num), zpow_natCast]
      rfl
    have hlead : Int.log 10 |ctx.rounded r| = ctx.place r + ctx.precision := by
      rw [hpower, add_comm]
      exact log_ten_eq le_rfl (zpow_lt_zpow_right₀ (by norm_num) (by omega))
    split
    · next hover => exact .beyond (by omega) rfl
    · next hover =>
      refine .within (by omega) ?_ (.inr rfl)
      have htens : c = 10 ^ (ctx.precision - 1) * 10 := by
        rw [hcarry, ← pow_succ, Nat.sub_add_cancel hp]
        rfl
      rw [hrounded, htens, signed_mul, quantity, zpow_add_one₀ (by norm_num), Quantity.rational.injEq,
        Nat.pow_eq]
      push_cast
      ring
  · rw [if_neg hcarry]
    refine .within ?_ (by rw [hrounded]; rfl) (.inr rfl)
    have hlt : |ctx.rounded r| < 10 ^ (maxExponent + 1) := by
      have hc : (c : ℚ) < 10 ^ ctx.precision := by exact_mod_cast lt_of_le_of_ne hle hcarry
      calc |ctx.rounded r| = c * 10 ^ ctx.place r := habs
        _ < 10 ^ ctx.precision * 10 ^ ctx.place r := mul_lt_mul_of_pos_right hc (ten_zpow_pos _)
        _ = 10 ^ ((ctx.precision : Int) + ctx.place r) := by rw [zpow_add₀ (by norm_num), zpow_natCast]
        _ ≤ 10 ^ (maxExponent + 1) :=
          zpow_le_zpow_right₀ (by norm_num) (precision_add_place_le hlog)
    have := log_abs_lt (by decide) hlt
    omega

end

/-- A multiple of the place that is in range is the result, and no condition is raised. -/
theorem Rounds.of_multiple {o : Outcome} {c e : Int} (hr : r = c * 10 ^ e) (h : ctx.place r ≤ e)
    (hlog : Int.log 10 |r| ≤ maxExponent) (hquantity : o.value.quantity = .rational r)
    (hconditions : o.conditions = []) : ctx.Rounds o r := by
  have hrounded : ctx.rounded r = r := roundAt_of_multiple hr h
  exact .within (by rwa [hrounded]) (by rwa [hrounded]) (.inl hconditions)

/-- **A context rounds every rational once**, to the nearest multiple of its place. The cases are
those of `Context.round`: zero, too large, too small, and a division with and without a rest. -/
theorem round_rounds (hp : 0 < ctx.precision) (hd : den ≠ 0)
    (hr : r = signed negative num / den * 10 ^ ideal) :
    ctx.Rounds (ctx.round negative num den ideal) r := by
  by_cases hn : num = 0
  · have hzero : r = 0 := by
      rw [hr, hn]
      cases negative <;> simp
    have hrounded : ctx.rounded r = 0 := by rw [hzero, rounded_zero]
    rw [round, if_pos hn, zero]
    refine .within (by rw [hrounded, abs_zero, Int.log_zero_right]; decide) ?_ (.inl rfl)
    rw [hrounded]
    cases negative <;> simp [quantity]
  · obtain ⟨hne, hlog⟩ := log_abs_quotient hn hd hr
    have hplace : max (Int.log 10 |r| - ctx.precision + 1) ctx.tiny = ctx.place r := rfl
    have hscaled := quotient_eq hr (ctx.place r)
    have hpos := scaleByTen_pos num hd (ideal - ctx.place r)
    -- the cases are those of `Context.round`, with its leading digit and place told of the rational
    simp only [round, if_neg hn, hlog, hplace]
    generalize scaleByTen num den (ideal - ctx.place r) = t at hscaled hpos
    split_ifs with hover hexact hunder hrest
    · -- too large before it is rounded, and rounding does not take the leading digit down
      have hle : ctx.place r ≤ Int.log 10 |r| := by
        apply max_le
        · omega
        · unfold maxExponent at hover
          unfold tiny minExponent
          omega
      exact .beyond (hover.trans_le (log_le_log_rounded hne hpos hscaled hle)) rfl
    · -- the quotient is whole at the ideal exponent
      have hwhole := eq_of_no_rest (Nat.pos_of_ne_zero hd) hr hexact.2
      exact .of_multiple hwhole hexact.1 (not_lt.mp hover) (congrArg _ hwhole.symm) rfl
    · -- no digit reaches the place
      have hrounded : ctx.rounded r = 0 := by
        apply roundAt_eq_zero
        calc |r| < 10 ^ (Int.log 10 |r| + 1) := by
              exact_mod_cast Int.lt_zpow_succ_log_self (by decide : 1 < 10) |r|
          _ ≤ 10 ^ (ctx.place r - 1) := zpow_le_zpow_right₀ (by norm_num) (by omega)
          _ ≤ 10 ^ ctx.place r / 2 := by
            have hten : (10 : ℚ) ^ ctx.place r = 10 ^ (ctx.place r - 1) * 10 := by
              rw [← zpow_add_one₀ (by norm_num), sub_add_cancel]
            have := ten_zpow_pos (ctx.place r - 1)
            linarith
      refine .within (by rw [hrounded, abs_zero, Int.log_zero_right]; decide) ?_ (.inr rfl)
      rw [hrounded]
      cases negative <;> simp [quantity]
    · -- whole at the place, and zeros at the end are given back to the exponent
      have hwhole := eq_of_no_rest hpos hscaled hrest
      obtain ⟨hstrip, -⟩ := stripZeros_spec (ideal - ctx.place r).toNat (t.1 / t.2) (ctx.place r)
      have hsame := (signed_mul_eq_iff (ten_zpow_pos _) (ten_zpow_pos _)).mpr
        ⟨hstrip, .inr (rfl : negative = negative)⟩
      exact .of_multiple hwhole le_rfl (not_lt.mp hover)
        (congrArg Quantity.rational (hsame.trans hwhole.symm)) rfl
    · -- the rest is rounded away
      exact carried_rounds hp hpos hscaled (not_lt.mp hover)

/-- Where the digits stop in a context, for a rational whose leading digit is not too small: the context
rounds to as many digits as its precision. -/
theorem rounded_eq_significant (h : minExponent ≤ Int.log 10 |r|) :
    ctx.rounded r = significant ctx.precision r := by
  have hplace : ctx.place r = Int.log 10 |r| + 1 - ctx.precision := by
    rw [place, tiny, max_eq_left (by omega)]
    omega
  rw [rounded, significant, hplace]

/-- Below that the last place stays where it is, and fewer digits than the precision are left. -/
theorem rounded_eq_roundAt_tiny (h : Int.log 10 |r| < minExponent) :
    ctx.rounded r = roundAt ctx.tiny r := by
  have hplace : ctx.place r = ctx.tiny := by
    rw [place, tiny, max_eq_right (by omega)]
  rw [rounded, hplace]

/-- Nothing so small is rounded to something too large: it is moved by half a place at most, and
the place is as small. -/
theorem log_rounded_le (hp : 0 < ctx.precision) (h : Int.log 10 |r| < minExponent) :
    Int.log 10 |ctx.rounded r| ≤ maxExponent := by
  have hr : |r| < 10 ^ minExponent := by
    calc |r| < 10 ^ (Int.log 10 |r| + 1) := by
          exact_mod_cast Int.lt_zpow_succ_log_self (by decide : 1 < 10) |r|
      _ ≤ 10 ^ minExponent := zpow_le_zpow_right₀ (by norm_num) h
  have htiny : (10 : ℚ) ^ ctx.tiny ≤ 10 ^ minExponent :=
    zpow_le_zpow_right₀ (by norm_num) (by unfold tiny; omega)
  have hone : (10 : ℚ) ^ minExponent ≤ 1 := zpow_le_one_of_nonpos₀ (by norm_num) (by decide)
  have hmoved := abs_sub_roundAt_le ctx.tiny r
  have htriangle := abs_sub_abs_le_abs_sub (roundAt ctx.tiny r) r
  rw [abs_sub_comm] at htriangle
  have hlt : |ctx.rounded r| < 10 ^ (1 : Int) := by
    rw [rounded_eq_roundAt_tiny h, zpow_one]
    linarith
  have hlog := log_abs_lt one_pos hlt
  exact hlog.le.trans (by decide)

/-! ## Quotients -/

end Decimal.Context

theorem signed_div_signed (s t : Bool) (m n : Nat) :
    (signed s m : ℚ) / signed t n = signed (s ^^ t) m / n := by
  cases s <;> cases t <;> simp [neg_div, div_neg]

namespace Decimal

variable {d e : Decimal} {x y : ℚ}

/-- The divisors that are refused are those that stand for zero, whatever their sign and exponent.
-/
theorem isZero_iff : d.isZero = true ↔ d.quantity = .rational 0 := by
  cases d with
  | nan => simp [isZero, quantity]
  | infinity s => simp [isZero, quantity]
  | finite s c f =>
    have hsigned : (signed s c : ℚ) = 0 ↔ c = 0 := by
      rw [← abs_eq_zero, abs_signed, Nat.cast_eq_zero]
    simp [isZero, quantity, hsigned, (ten_zpow_pos f).ne']

/-- The quotient of two decimals is the exact one, rounded once. The exact quotient is a fraction
of the coefficients with a power of ten. -/
theorem Context.div_rounds {ctx : Context} (hp : 0 < ctx.precision) (hd : d.quantity = .rational x)
    (he : e.quantity = .rational y) (hy : y ≠ 0) : ctx.Rounds (ctx.div d e) (x / y) := by
  have hnonzero : ¬e.isZero = true := by
    rw [isZero_iff, he, Quantity.rational.injEq]
    exact hy
  obtain ⟨s, c, f, rfl, rfl⟩ := exists_finite hd
  obtain ⟨t, c', f', rfl, rfl⟩ := exists_finite he
  have hc' : c' ≠ 0 := by simpa [isZero] using hnonzero
  have hquot : (signed s c : ℚ) * 10 ^ f / (signed t c' * 10 ^ f')
      = signed (s ^^ t) c / c' * 10 ^ (f - f') := by
    rw [mul_div_mul_comm, signed_div_signed, zpow_sub₀ (by norm_num)]
  rw [div, if_neg hc']
  exact round_rounds hp hc' hquot

/-- **Quotients are rounded or overflow.** Inexactness is not trapped here, unlike in the context
of the other operations. -/
theorem operate_div_cases (hd : d.quantity = .rational x) (he : e.quantity = .rational y) (hy : y ≠ 0) :
    (Int.log 10 |divisionContext.rounded (x / y)| ≤ maxExponent
        ∧ ∃ w : Decimal, Kind.operate .div .bigdecimal d e = .ok w
          ∧ w.quantity = .rational (divisionContext.rounded (x / y)))
      ∨ (maxExponent < Int.log 10 |divisionContext.rounded (x / y)|
        ∧ Kind.operate .div .bigdecimal d e = .error (.trapped ⟨.overflow, []⟩)) := by
  have hoperate : Kind.operate .div .bigdecimal d e
      = (divisionContext.trap (divisionContext.div d e)).mapError .trapped := rfl
  have hrounds : divisionContext.Rounds (divisionContext.div d e) (x / y) :=
    Context.div_rounds (by decide) hd he hy
  rw [hoperate]
  cases hrounds with
  | within hfits hquantity hconditions =>
    refine .inl ⟨hfits, (divisionContext.div d e).value, ?_, hquantity⟩
    rcases hconditions with h | h <;> rw [Context.trap, h] <;> rfl
  | beyond hlarge hconditions =>
    refine .inr ⟨hlarge, ?_⟩
    rw [Context.trap, hconditions]
    rfl

end Decimal

namespace Value

variable {a b : Value} {x y : ℚ}

/-- The same of values, which are promoted without loss. One of them is a decimal, so the quotient
is one. -/
theorem apply_div_cases (hk : a.kind = .bigdecimal ∨ b.kind = .bigdecimal) (ha : a.quantity = .rational x)
    (hb : b.quantity = .rational y) (hy : y ≠ 0) :
    (Int.log 10 |Decimal.divisionContext.rounded (x / y)| ≤ Decimal.maxExponent
        ∧ ∃ w : Decimal, a.apply .div b = .ok ⟨.bigdecimal, w⟩
          ∧ w.quantity = .rational (Decimal.divisionContext.rounded (x / y)))
      ∨ (Decimal.maxExponent < Int.log 10 |Decimal.divisionContext.rounded (x / y)|
        ∧ a.apply .div b = .error (.arithmetic ⟨.div, a, b, .trapped ⟨.overflow, []⟩⟩)) := by
  have hdividend := a.quantity_widen_bigdecimal.trans ha
  have hdivisor := b.quantity_widen_bigdecimal.trans hb
  -- the divisor is tested as it was given, and stands for a number that is not zero
  have hzero : (Operation.div.divides && b.isZero) = false := by
    rw [← isZero_widen b .bigdecimal b.kind.le_bigdecimal, Bool.and_eq_false_imp]
    intro _
    rw [Bool.eq_false_iff]
    intro h
    have hquantity := Decimal.isZero_iff.mp h
    rw [hdivisor, Quantity.rational.injEq] at hquantity
    exact hy hquantity
  have hsignals : (Operation.div.divides && b.signals) = false := by
    have hnumber : b.quantity ≠ .nan := by simp [hb]
    rw [signals_of_quantity hnumber, Bool.and_false]
  have happly := apply_eq_operate hsignals hzero (Kind.join_bigdecimal hk) a.kind.le_bigdecimal
    b.kind.le_bigdecimal
  rcases Decimal.operate_div_cases hdividend hdivisor hy with ⟨h, w, hoperate, hw⟩ | ⟨h, hoperate⟩
  · rw [hoperate] at happly
    exact .inl ⟨h, w, happly, hw⟩
  · rw [hoperate] at happly
    exact .inr ⟨h, happly⟩

/-- A quotient that is not too large is the rounded one. The two cases exclude each other, so the
size of the rounded quotient decides. -/
theorem apply_div_of_log_le (hk : a.kind = .bigdecimal ∨ b.kind = .bigdecimal)
    (ha : a.quantity = .rational x) (hb : b.quantity = .rational y) (hy : y ≠ 0)
    (h : Int.log 10 |Decimal.divisionContext.rounded (x / y)| ≤ Decimal.maxExponent) :
    ∃ w : Decimal, a.apply .div b = .ok ⟨.bigdecimal, w⟩
      ∧ w.quantity = .rational (Decimal.divisionContext.rounded (x / y)) := by
  rcases apply_div_cases hk ha hb hy with ⟨-, hw⟩ | ⟨hlarge, -⟩
  · exact hw
  · exact absurd h (not_le.mpr hlarge)

/-! ## The headline -/

/-- **Decimal quotients are correctly rounded.** Let two finite values be given, one of them at least a
decimal, let the divisor not be zero, and let `q` be the exact quotient of their quantities.

* If `q` is zero, the result is a zero.
* If the leading digit of `q` is not below the smallest exponent, the result is `q` rounded to one hundred
  significant digits, a half going to the even neighbour. There is an arithmetic error, an overflow,
  if and only if the leading digit of the rounded quotient is above the largest exponent. In particular,
  the result is exactly `q` if one hundred digits suffice for it and it is not that large.
* If the leading digit of `q` is below the smallest exponent, there always is a result: `q` rounded in the
  same way at the last place that the smallest exponent leaves. -/
theorem decimal_division_rounded (hk : a.kind = .bigdecimal ∨ b.kind = .bigdecimal)
    (ha : a.quantity = .rational x) (hb : b.quantity = .rational y) (hy : y ≠ 0) :
    (x / y = 0 → ∃ w, a.apply .div b = .ok w ∧ w.kind = .bigdecimal ∧ w.isZero = true)
      ∧ (x / y ≠ 0 → Decimal.minExponent ≤ Int.log 10 |x / y| →
          (Int.log 10 |significant 100 (x / y)| ≤ Decimal.maxExponent →
              ∃ w, a.apply .div b = .ok w ∧ w.kind = .bigdecimal
                ∧ w.quantity = .rational (significant 100 (x / y)))
            ∧ (Decimal.maxExponent < Int.log 10 |significant 100 (x / y)| →
              a.apply .div b = .error (.arithmetic ⟨.div, a, b, .trapped ⟨.overflow, []⟩⟩))
            ∧ ∀ c e : Int, x / y = c * 10 ^ e → |c| < 10 ^ 100 →
              Int.log 10 |x / y| ≤ Decimal.maxExponent →
              ∃ w, a.apply .div b = .ok w ∧ w.kind = .bigdecimal ∧ w.quantity = .rational (x / y))
      ∧ (x / y ≠ 0 → Int.log 10 |x / y| < Decimal.minExponent →
          ∃ w, a.apply .div b = .ok w ∧ w.kind = .bigdecimal
            ∧ w.quantity = .rational (roundAt (Decimal.minExponent - 99) (x / y))) := by
  refine ⟨fun hzero => ?_, fun hne hlow => ?_, fun hne hlow => ?_⟩
  · have hrounded : Decimal.divisionContext.rounded (x / y) = 0 := by
      rw [hzero, Decimal.Context.rounded_zero]
    obtain ⟨w, happly, hw⟩ := apply_div_of_log_le hk ha hb hy
      (by rw [hrounded, abs_zero, Int.log_zero_right]; decide)
    rw [hrounded] at hw
    exact ⟨_, happly, rfl, Decimal.isZero_iff.mpr hw⟩
  · have hrounded : Decimal.divisionContext.rounded (x / y) = significant 100 (x / y) :=
      Decimal.Context.rounded_eq_significant hlow
    -- the context rounds to significant digits here, so its two outcomes are the two cases
    have hwithin (hfits : Int.log 10 |significant 100 (x / y)| ≤ Decimal.maxExponent) :
        ∃ w, a.apply .div b = .ok w ∧ w.kind = .bigdecimal
          ∧ w.quantity = .rational (significant 100 (x / y)) := by
      rw [← hrounded] at hfits ⊢
      obtain ⟨w, happly, hw⟩ := apply_div_of_log_le hk ha hb hy hfits
      exact ⟨_, happly, rfl, hw⟩
    refine ⟨hwithin, fun hlarge => ?_, fun c e hq hc hfits => ?_⟩
    · rw [← hrounded] at hlarge
      rcases apply_div_cases hk ha hb hy with ⟨hfits, -⟩ | ⟨-, happly⟩
      · exact absurd hfits (not_le.mpr hlarge)
      · exact happly
    · -- a quotient of at most one hundred digits is not changed by rounding
      rw [significant_of_short hne hq hc] at hwithin
      exact hwithin hfits
  · have hp : 0 < Decimal.divisionContext.precision := by decide
    obtain ⟨w, happly, hw⟩ := apply_div_of_log_le hk ha hb hy (Decimal.Context.log_rounded_le hp hlow)
    rw [Decimal.Context.rounded_eq_roundAt_tiny hlow] at hw
    exact ⟨_, happly, rfl, hw⟩

theorem log_nines : Int.log 10 |((10 : ℚ) ^ 101 - 5) / 10| = 99 := by
  apply log_ten_eq <;> norm_num

/-- One hundred nines and a half are rounded to a digit more, so that the leading digit moves up.
-/
theorem significant_nines : significant 100 ((10 ^ 101 - 5) / 10) = 10 ^ 100 := by
  have hround : roundDiv (10 ^ 101 - 5) 10 = 10 ^ 100 := by decide +kernel
  have hquot : ((10 : ℚ) ^ 101 - 5) / 10
      = signed false (10 ^ 101 - 5) / (10 : Nat) * 10 ^ (Int.log 10 |((10 : ℚ) ^ 101 - 5) / 10| + 1 - 100) := by
    rw [log_nines, signed_false]
    norm_num
  rw [significant, Nat.cast_ofNat, roundAt_quotient (by decide) hquot, hround, log_nines, signed_false]
  norm_num

/-- One hundred nines and a half, as the quotient of a decimal and an integer. All digits carry,
and the quotient is a power of ten. -/
theorem decimal_division_rounded_carry :
    quantity ⟨.bigdecimal, .finite false (10 ^ 101 - 5) 0⟩ = .rational (10 ^ 101 - 5)
      ∧ (ofInt .int8 10 (by decide)).quantity = .rational 10 ∧ (10 : ℚ) ≠ 0
      ∧ ∃ w, apply .div ⟨.bigdecimal, .finite false (10 ^ 101 - 5) 0⟩ (ofInt .int8 10 (by decide)) = .ok w
        ∧ w.kind = .bigdecimal ∧ w.quantity = .rational (10 ^ 100) := by
  have hnines : quantity ⟨.bigdecimal, .finite false (10 ^ 101 - 5) 0⟩ = .rational (10 ^ 101 - 5) := by
    show Quantity.rational _ = _
    rw [signed_false]
    norm_num
  have hten : (ofInt .int8 10 (by decide)).quantity = .rational 10 := congrArg _ (Int.cast_ofNat 10)
  obtain ⟨-, hnormal, -⟩ := decimal_division_rounded (.inl rfl) hnines hten (by norm_num)
  obtain ⟨hfits, -⟩ := hnormal (by norm_num) (by rw [log_nines]; decide)
  rw [significant_nines] at hfits
  refine ⟨hnines, hten, by norm_num, hfits ?_⟩
  have hlead : Int.log 10 |(10 : ℚ) ^ 100| = 100 := by
    apply log_ten_eq <;> norm_num
  rw [hlead]
  decide

end Value

end StackMachine
