import Mathlib
import StackMachine.Proofs.NumberTexts
import StackMachine.Proofs.PartialArithmetic

/-!
# Quantities

A number is kept as an integer, as a multiple of a format's unit, or as a coefficient with a power of
ten. What it stands for is its quantity: a rational, an infinity, or nothing. Two numbers of one kind
are equal if and only if they stand for the same quantity, and a form with more room keeps it.

* **`Value.quantity`**: the quantity of a value.
* **`Decimal.adjusted_eq_log`**: the place of the leading digit, told by the quantity alone.
* **`Kind.numEq_iff`**: equality within a kind is equality of quantities.
* **`Format.Embeds.quantity_convert`**, **`Binary.quantity_toDecimal`**: what conversions keep.
-/

namespace StackMachine

/-- What a number stands for, whatever form it is kept in. Both zeros stand for the same. -/
inductive Quantity where
  | nan
  | infinity (negative : Bool)
  | rational (r : ℚ)
deriving DecidableEq

def Binary.quantity {fmt : Format} : Binary fmt → Quantity
  | .nan => .nan
  | .infinity negative => .infinity negative
  | .finite negative units _ => .rational (signed negative units / 2 ^ fmt.scale)

def Decimal.quantity : Decimal → Quantity
  | .nan _ => .nan
  | .infinity negative => .infinity negative
  | .finite negative c e => .rational (signed negative c * 10 ^ e)

def Kind.quantity : (k : Kind) → k.Number → Quantity
  | .integer _, n => .rational n.val
  | .floating _, x => Binary.quantity x
  | .bigdecimal, d => Decimal.quantity d

def Value.quantity (v : Value) : Quantity :=
  v.kind.quantity v.number

/-- What signals stands for nothing, as any other `nan`. -/
theorem Value.quantity_of_signals {v : Value} (h : v.signals = true) : v.quantity = .nan := by
  obtain ⟨_ | _ | _, x⟩ := v
  · cases h
  · cases h
  · change Decimal.signals x = true at h
    cases x with
    | nan n => rfl
    | infinity s => cases h
    | finite s c e => cases h

/-- What stands for something does not signal, so it can be compared and divided by. -/
theorem Value.signals_of_quantity {v : Value} (h : v.quantity ≠ .nan) : v.signals = false := by
  rw [Bool.eq_false_iff]
  exact fun hs => h (quantity_of_signals hs)

/-- A binary number that stands for a rational is finite, and the rational is its units over the
scale of the format. Faithfulness proofs start by taking their operands apart with it. -/
theorem Binary.exists_finite {fmt : Format} {x : Binary fmt} {r : ℚ} (h : x.quantity = .rational r) :
    ∃ s u hu, x = .finite s u hu ∧ r = signed s u / 2 ^ fmt.scale := by
  cases x with
  | nan => cases h
  | infinity s => cases h
  | finite s u hu => exact ⟨s, u, hu, rfl, (Quantity.rational.inj h).symm⟩

/-- A decimal that stands for a rational is finite, and the rational is its coefficient times a
power of ten. -/
theorem Decimal.exists_finite {d : Decimal} {r : ℚ} (h : d.quantity = .rational r) :
    ∃ s c e, d = .finite s c e ∧ r = signed s c * 10 ^ e := by
  cases d with
  | nan => cases h
  | infinity s => cases h
  | finite s c e => exact ⟨s, c, e, rfl, (Quantity.rational.inj h).symm⟩

/-! ## Signs -/

section

variable {s t : Bool} {c d : Nat}

@[simp] theorem signed_false (n : Nat) : signed false n = n := rfl

@[simp] theorem signed_true (n : Nat) : signed true n = -(n : Int) := rfl

@[simp] theorem signed_not (s : Bool) (n : Nat) : signed (!s) n = -signed s n := by
  cases s <;> simp

@[simp] theorem natAbs_signed (s : Bool) (n : Nat) : (signed s n).natAbs = n := by
  cases s <;> simp

theorem abs_signed (s : Bool) (n : Nat) : |(signed s n : ℚ)| = n := by
  cases s <;> simp

/-- An exact sum with the sign that is given to it: two zeros keep the sign they share. Sign and
magnitude together give back the sum. -/
theorem signed_of_sum (s t : Bool) (n : Int) :
    signed (if n = 0 then s && t else decide (n < 0)) n.natAbs = n := by
  split
  · next h =>
    rw [h]
    cases s && t <;> rfl
  · exact Numeral.signed_natAbs n

theorem signed_mul (s : Bool) (m n : Nat) : signed s (m * n) = signed s m * n := by
  cases s <;> simp

theorem signed_mul_signed (s t : Bool) (m n : Nat) :
    signed s m * signed t n = signed (s ^^ t) (m * n) := by
  cases s <;> cases t <;> simp

/-- Signed multiples are equal if they are equal without their signs, and the signs are equal too
unless there is nothing to be signed. -/
theorem signed_mul_eq_iff {p q : ℚ} (hp : 0 < p) (hq : 0 < q) :
    (signed s c : ℚ) * p = signed t d * q ↔ (c : ℚ) * p = d * q ∧ (c = 0 ∨ s = t) := by
  constructor
  · intro h
    have habs : (c : ℚ) * p = d * q := by
      have := congrArg abs h
      rwa [abs_mul, abs_mul, abs_signed, abs_signed, abs_of_pos hp, abs_of_pos hq] at this
    refine ⟨habs, ?_⟩
    -- with different signs and a magnitude that is not zero the two sides would differ in sign
    by_contra hne
    obtain ⟨hc, hst⟩ := not_or.mp hne
    have hpos : 0 < (c : ℚ) * p := mul_pos (by exact_mod_cast Nat.pos_of_ne_zero hc) hp
    cases s <;> cases t <;> simp at h hst <;> linarith
  · rintro ⟨habs, rfl | rfl⟩
    · have hd : (d : ℚ) = 0 := by
        rw [Nat.cast_zero, zero_mul] at habs
        exact (mul_eq_zero.mp habs.symm).resolve_right hq.ne'
      have hd' : d = 0 := by exact_mod_cast hd
      cases s <;> cases t <;> simp [hd']
    · cases s <;> simp <;> linarith

end

/-! ## Places of digits -/

section

variable {c d n k : Nat} {e f : Int}

theorem ten_zpow_pos (e : Int) : (0 : ℚ) < 10 ^ e :=
  zpow_pos (by norm_num) e

/-- A power of ten as a whole multiple of a smaller one. It brings coefficients with different
exponents to the smaller exponent. -/
theorem ten_zpow_eq (h : f ≤ e) : (10 : ℚ) ^ e = 10 ^ (e - f).toNat * 10 ^ f := by
  rw [← zpow_natCast, ← zpow_add₀ (by norm_num)]
  congr 1
  omega

/-- A multiple of a power of ten that is not zero is not smaller than it. So what is smaller has
digits below that place. -/
theorem ten_zpow_le_abs {m : Int} (hm : m ≠ 0) (e : Int) : (10 : ℚ) ^ e ≤ |(m : ℚ) * 10 ^ e| := by
  have hone : (1 : ℚ) ≤ |(m : ℚ)| := by exact_mod_cast Int.one_le_abs hm
  rw [abs_mul, abs_of_pos (ten_zpow_pos e)]
  exact le_mul_of_one_le_left (ten_zpow_pos e).le hone

theorem digitCount_pos (n : Nat) : 0 < digitCount n :=
  Nat.length_toDigits_pos

/-- A number has at most `k` digits just when it is below the `k`-th power of ten; zero has one
digit. -/
theorem digitCount_le_iff (hk : 0 < k) : digitCount n ≤ k ↔ n < 10 ^ k :=
  Nat.length_toDigits_le_iff (by decide) hk

theorem lt_ten_pow_digitCount (n : Nat) : n < 10 ^ digitCount n :=
  (digitCount_le_iff (digitCount_pos n)).mp (Nat.le_refl _)

theorem ten_pow_le_of_ne_zero (hn : n ≠ 0) : 10 ^ (digitCount n - 1) ≤ n := by
  rcases Nat.lt_or_ge 1 (digitCount n) with hlong | hshort
  · by_contra hlt
    have := (digitCount_le_iff (by omega)).mpr (Nat.lt_of_not_le hlt)
    omega
  · rw [Nat.sub_eq_zero_of_le hshort, pow_zero]
    exact Nat.pos_of_ne_zero hn

/-- The digits of a number give the powers of ten between which it lies. -/
theorem digitCount_bounds (hn : n ≠ 0) :
    (10 : ℚ) ^ ((digitCount n : Int) - 1) ≤ n ∧ (n : ℚ) < 10 ^ (digitCount n : Int) := by
  rw [← Nat.cast_pred (digitCount_pos n), zpow_natCast, zpow_natCast]
  exact ⟨by exact_mod_cast ten_pow_le_of_ne_zero hn, by exact_mod_cast lt_ten_pow_digitCount n⟩

/-- The place of the leading digit of a rational that lies between two powers of ten. Places are
stated with `Int.log`, and this is how they are computed. -/
theorem log_ten_eq {r : ℚ} {p : Int} (hlow : 10 ^ p ≤ r) (hhigh : r < 10 ^ (p + 1)) :
    Int.log 10 r = p := by
  have hr : 0 < r := (ten_zpow_pos p).trans_le hlow
  apply Int.le_antisymm
  · have := (Int.lt_zpow_iff_log_lt (by decide : 1 < 10) hr).mp (by exact_mod_cast hhigh)
    omega
  · exact (Int.zpow_le_iff_le_log (by decide : 1 < 10) hr).mp (by exact_mod_cast hlow)

/-- A power of ten moves the leading digit by its exponent. -/
theorem log_mul_ten_zpow {r : ℚ} (hr : 0 < r) (e : Int) :
    Int.log 10 (r * 10 ^ e) = Int.log 10 r + e := by
  apply log_ten_eq
  · rw [zpow_add₀ (by norm_num)]
    exact mul_le_mul_of_nonneg_right (Int.zpow_log_le_self (by decide : 1 < 10) hr)
      (ten_zpow_pos e).le
  · rw [add_right_comm, zpow_add₀ (by norm_num)]
    exact mul_lt_mul_of_pos_right (Int.lt_zpow_succ_log_self (by decide : 1 < 10) r) (ten_zpow_pos e)

/-- **The place of the leading digit is that of the quantity.** The coefficient and the exponent
can be chosen in several ways for one quantity, and the sum of digits and exponent is the same for
all. -/
theorem Decimal.adjusted_eq_log (hc : c ≠ 0) (e : Int) :
    adjusted c e = Int.log 10 ((c : ℚ) * 10 ^ e) := by
  have hpos : (0 : ℚ) < c := by exact_mod_cast Nat.pos_of_ne_zero hc
  obtain ⟨hlow, hhigh⟩ := digitCount_bounds hc
  have hlog : Int.log 10 (c : ℚ) = digitCount c - 1 := log_ten_eq hlow (by rwa [sub_add_cancel])
  have hcount := digitCount_pos c
  rw [log_mul_ten_zpow hpos, hlog, adjusted]
  omega

end

/-! ## Equality within a kind -/

namespace Binary

variable {fmt : Format}

/-- Two binary numbers are equal just when they stand for the same. They have the same scale, so
finite ones are compared by their units. -/
theorem numEq_iff (x y : Binary fmt) :
    x.numEq y = true ↔ x.quantity ≠ .nan ∧ x.quantity = y.quantity := by
  match x, y with
  | .nan, _ => simp [numEq, quantity]
  | .infinity s, .nan => simp [numEq, quantity]
  | .infinity s, .infinity t => simp [numEq, quantity]
  | .infinity s, .finite t v _ => simp [numEq, quantity]
  | .finite s u _, .nan => simp [numEq, quantity]
  | .finite s u _, .infinity t => simp [numEq, quantity]
  | .finite s u _, .finite t v _ =>
    have hunit : (0 : ℚ) < (2 ^ fmt.scale)⁻¹ := by positivity
    simp only [numEq, quantity, ne_eq, reduceCtorEq, not_false_eq_true, true_and,
      Quantity.rational.injEq, div_eq_mul_inv, signed_mul_eq_iff hunit hunit,
      mul_left_inj' hunit.ne', Nat.cast_inj, Bool.and_eq_true, Bool.or_eq_true, beq_iff_eq]

end Binary

namespace Decimal

variable {c d : Nat} {e f : Int}

/-- Coefficients brought to the smaller exponent are equal just when the quantities are. -/
theorem aligned_iff (h : f ≤ e) :
    c * 10 ^ (e - f).toNat = d ↔ (c : ℚ) * 10 ^ e = d * 10 ^ f := by
  rw [ten_zpow_eq h, ← mul_assoc, mul_left_inj' (ten_zpow_pos f).ne']
  norm_cast

/-- Magnitudes are compared by their leading places first, and only if these agree are they
brought to one exponent. So no large power of ten is written out, and the answer is that of the
rationals. -/
theorem sameMagnitude_iff (hc : c ≠ 0) (hd : d ≠ 0) :
    sameMagnitude c e d f = true ↔ (c : ℚ) * 10 ^ e = d * 10 ^ f := by
  rw [sameMagnitude, Bool.and_eq_true, beq_iff_eq, adjusted_eq_log hc, adjusted_eq_log hd]
  have haligned : (if f ≤ e then c * Nat.pow 10 (e - f).toNat == d
      else c == d * Nat.pow 10 (f - e).toNat) = true ↔ (c : ℚ) * 10 ^ e = d * 10 ^ f := by
    split
    · next h => exact beq_iff_eq.trans (aligned_iff h)
    · next h => exact beq_iff_eq.trans (eq_comm.trans ((aligned_iff (by omega)).trans eq_comm))
  rw [haligned]
  exact ⟨And.right, fun h => ⟨by rw [h], h⟩⟩

/-- Two decimals are equal just when they stand for the same, whatever their exponents are. -/
theorem numEq_iff (x y : Decimal) :
    x.numEq y = true ↔ x.quantity ≠ .nan ∧ x.quantity = y.quantity := by
  match x, y with
  | .nan _, _ => simp [numEq, quantity]
  | .infinity s, .nan _ => simp [numEq, quantity]
  | .infinity s, .infinity t => simp [numEq, quantity]
  | .infinity s, .finite t d f => simp [numEq, quantity]
  | .finite s c e, .nan _ => simp [numEq, quantity]
  | .finite s c e, .infinity t => simp [numEq, quantity]
  | .finite s c e, .finite t d f =>
    simp only [numEq, quantity, ne_eq, reduceCtorEq, not_false_eq_true, true_and,
      Quantity.rational.injEq, signed_mul_eq_iff (ten_zpow_pos e) (ten_zpow_pos f)]
    split
    · next hzero =>
      -- a zero equals zeros only, whatever the exponents are
      rw [Bool.and_eq_true, beq_iff_eq, beq_iff_eq]
      constructor
      · rintro ⟨rfl, rfl⟩
        exact ⟨by simp, .inl rfl⟩
      · rintro ⟨hsame, -⟩
        rcases hzero with rfl | rfl
        · simpa [(ten_zpow_pos f).ne', eq_comm] using hsame
        · simpa [(ten_zpow_pos e).ne'] using hsame
    · next hzero =>
      obtain ⟨hc, hd⟩ := not_or.mp hzero
      rw [Bool.and_eq_true, beq_iff_eq, sameMagnitude_iff hc hd, and_comm]
      simp only [hc, false_or]

end Decimal

/-- **Equality within a kind is equality of quantities**, one case for each sort of kind. What is
no number equals nothing. -/
theorem Kind.numEq_iff : (k : Kind) → (x y : k.Number) →
    (k.numEq x y = true ↔ k.quantity x ≠ .nan ∧ k.quantity x = k.quantity y)
  | .integer _, m, n => by simp [numEq, quantity]
  | .floating _, x, y => Binary.numEq_iff x y
  | .bigdecimal, d, e => Decimal.numEq_iff d e

/-! ## Other forms of the same quantity -/

namespace Format.Embeds

variable {fmt wide : Format}

/-- A binary number stands for the same in every format that it embeds in. -/
theorem quantity_convert (h : Embeds fmt wide) (x : Binary fmt) :
    (Binary.convert wide x).quantity = x.quantity := by
  cases x with
  | nan => rfl
  | infinity negative => rfl
  | finite negative u hu =>
    have hscale : (2 : ℚ) ^ wide.scale = 2 ^ (wide.scale - fmt.scale) * 2 ^ fmt.scale := by
      exact_mod_cast h.two_pow_scale
    rw [h.convert_finite]
    simp only [Binary.quantity, Quantity.rational.injEq, hscale]
    cases negative <;> push_cast [signed_true, signed_false] <;> field_simp

end Format.Embeds

namespace Binary

variable {fmt : Format}

/-- Cancelling factors of two does not change the fraction. Induction on the recursion of
`lowestTerms`. -/
theorem lowestTerms_eq (n limit : Nat) :
    (n : ℚ) / 2 ^ limit = (lowestTerms n limit).1 / 2 ^ (lowestTerms n limit).2 := by
  fun_induction lowestTerms n limit with
  | case1 n => rfl
  | case2 n limit heven ih =>
    have hdvd : 2 * (n / 2) = n := Nat.mul_div_cancel' (Nat.dvd_of_mod_eq_zero heven)
    have hhalf : (n : ℚ) = 2 * (n / 2 : Nat) := by exact_mod_cast hdvd.symm
    rw [← ih, hhalf, pow_succ]
    field_simp
  | case3 n limit hodd => rfl

/-- **Every binary number is promoted to a decimal exactly**: a power of two divides a power of
ten. -/
theorem quantity_toDecimal (x : Binary fmt) : x.toDecimal.quantity = x.quantity := by
  cases x with
  | nan => rfl
  | infinity negative => rfl
  | finite negative u hu =>
    have hterms := lowestTerms_eq u fmt.scale
    simp only [toDecimal]
    generalize lowestTerms u fmt.scale = t at hterms
    -- `n / 2 ^ k` is `n * 5 ^ k / 10 ^ k`
    have hten : ((t.1 * Nat.pow 5 t.2 : Nat) : ℚ) * 10 ^ (-(t.2 : Int)) = (u : ℚ) / 2 ^ fmt.scale := by
      rw [hterms, zpow_neg, zpow_natCast, Nat.pow_eq, Nat.cast_mul, Nat.cast_pow,
        show (10 : ℚ) = 2 * 5 by norm_num, mul_pow]
      push_cast
      field_simp
    simp only [Decimal.quantity, quantity, Quantity.rational.injEq]
    cases negative with
    | false => rw [signed_false, signed_false, Int.cast_natCast, Int.cast_natCast, hten]
    | true =>
      rw [signed_true, signed_true, Int.cast_neg, Int.cast_neg, Int.cast_natCast, Int.cast_natCast,
        neg_mul, neg_div, hten]

end Binary

end StackMachine
