import Mathlib
import StackMachine.Proofs.NearestNumbers

/-!
# Promotion loses nothing but digits of large integers

Of the fifteen ways up to another kind fourteen keep every quantity. From `int32` to `float` an integer
is rounded to the nearest float, and it is kept if it has a significand of twenty-four bits. A way up
can be gone in several steps: a step that keeps the quantity can be left out without any trace.

* **`Value.FitsIn`**: the one condition for a quantity to be kept.
* **`Value.quantity_widen_iff`**: what it is the condition for.
* **`Value.widen_widen`**: steps that can be left out.
* **`Value.promotion_lossless`**: the headline.
-/

namespace StackMachine

/-- The integer has a significand of twenty-four bits. -/
def FitsFloat (n : Int) : Prop :=
  ∃ (m : Int) (e : Nat), n = m * 2 ^ e ∧ |m| < 2 ^ 24

namespace Kind

/-- Integers of the first kind can be too long for the second one. -/
def Rounds (j k : Kind) : Prop :=
  j = .integer .int32 ∧ k = .floating .float

/-- The kinds that floats are promoted to. -/
def AboveFloat (k : Kind) : Prop :=
  k = .floating .double ∨ k = .bigdecimal

end Kind

/-! ## Integers as floats -/

namespace FloatKind

theorem holdsIntegers (f : FloatKind) : f.format.HoldsIntegers := by
  unfold Format.HoldsIntegers
  cases f <;> decide

theorem two_le_precision (f : FloatKind) : 2 ≤ f.format.precision := by
  cases f <;> decide

/-- Integers of thirty-two bits are far from the bound, in the units of either format. -/
theorem units_lt_bound (f : FloatKind) : 31 + f.format.scale < f.format.bound := by
  cases f <;> decide

end FloatKind

namespace IntKind.InRange

variable {k : IntKind} {n : Int}

theorem units_le (h : k.InRange n) (f : FloatKind) :
    n.natAbs * 2 ^ f.format.scale ≤ 1 * 2 ^ (31 + f.format.scale) := by
  rw [pow_add, Nat.one_mul]
  exact Nat.mul_le_mul_right _ (h.natAbs_le.trans (by decide))

/-- The units of an integer stay below the bound, so only its length can keep it from being a
number of the format. -/
theorem units_lt (h : k.InRange n) (f : FloatKind) :
    n.natAbs * 2 ^ f.format.scale < 2 ^ f.format.bound := by
  apply (h.units_le f).trans_lt
  rw [Nat.one_mul]
  exact Nat.pow_lt_pow_right (by decide) f.units_lt_bound

/-- No integer is too large for a float. It may be rounded, but not to an infinity. -/
theorem isFinite_ofInt (h : k.InRange n) (f : FloatKind) :
    (Binary.ofInt f.format n).isFinite = true := by
  have hrep : f.format.Representable (1 * 2 ^ (31 + f.format.scale)) := by
    apply Format.representable_of_mul (Nat.one_lt_two_pow f.precision_pos.ne')
    rw [Nat.one_mul]
    exact Nat.pow_lt_pow_right (by decide) f.units_lt_bound
  refine Binary.isFinite_ofUnits f.precision_pos hrep Nat.one_pos ?_ _
  rw [Nat.mul_one]
  exact h.units_le f

/-- Where integers are not rounded, none of them is longer than the significand. -/
theorem natAbs_lt_precision (h : k.InRange n) {f : FloatKind}
    (hf : ¬Kind.Rounds (.integer k) (.floating f)) : n.natAbs < 2 ^ f.format.precision := by
  cases f with
  | double => exact h.natAbs_lt
  | float =>
    show n.natAbs < 2 ^ 24
    cases k with
    | int8 | int16 =>
      simp only [IntKind.InRange, least, greatest, bits, Nat.pow_eq] at h
      omega
    | int32 => exact absurd ⟨rfl, rfl⟩ hf

end IntKind.InRange

namespace Value

/-- If the value is an integer and the kind has floats, the integer is one of them. -/
def FitsIn (v : Value) (k : Kind) : Prop :=
  ∀ n f, v.int? = some n → k = .floating f → f.format.Representable (n.natAbs * 2 ^ f.format.scale)

variable {v : Value} {k : Kind} {n : Int}

/-- Only where large integers are rounded can there be any that do not fit. All other promotions
are exact for all values. -/
theorem fitsIn_of_not_rounds (h : ¬v.kind.Rounds k) : v.FitsIn k := by
  rintro n f hn rfl
  obtain ⟨_ | _ | _, m⟩ := v
  · obtain rfl := Option.some.inj hn
    exact Format.representable_int f.holdsIntegers (m.property.natAbs_lt_precision h)
  · cases hn
  · cases hn

/-- There, those with a significand of twenty-four bits do. They need not be below `2 ^ 24`, for
zeros at the end do not count. -/
theorem fitsIn_iff (h : v.kind.Rounds k) (hn : v.int? = some n) : v.FitsIn k ↔ FitsFloat n := by
  obtain ⟨j, m⟩ := v
  obtain ⟨rfl, rfl⟩ := h
  obtain rfl := Option.some.inj hn
  have hiff := Format.representable_int_iff (m.property.units_lt .float)
  constructor
  · intro hfits
    exact hiff.mp (hfits _ _ rfl rfl)
  · rintro hfits n f hn hf
    obtain rfl := Option.some.inj hn
    obtain rfl := Kind.floating.inj hf
    exact hiff.mpr hfits

end Value

/-! ## One step -/

theorem Decimal.quantity_ofInt (n : Int) : (ofInt n).quantity = .rational n := by
  rw [ofInt, quantity, Numeral.signed_natAbs, zpow_zero, mul_one]

namespace Value

/-- **Promotion keeps the quantity of what fits.** One case for each pair of kinds. -/
theorem quantity_widen {v : Value} {k : Kind} (h : v.kind ≤ k) (hfits : v.FitsIn k) :
    k.quantity (v.widen k h) = v.quantity := by
  match v, k, h with
  | ⟨.integer _, n⟩, .integer _, _ => rfl
  | ⟨.integer _, n⟩, .floating f, _ => exact Binary.quantity_ofInt_iff.mpr (hfits _ _ rfl rfl)
  | ⟨.integer _, n⟩, .bigdecimal, _ => exact Decimal.quantity_ofInt n.val
  | ⟨.floating .float, x⟩, .floating .float, _ => rfl
  | ⟨.floating .float, x⟩, .floating .double, _ =>
    exact Format.single_embeds_double.quantity_convert x
  | ⟨.floating .double, x⟩, .floating .double, _ => rfl
  | ⟨.floating .float, x⟩, .bigdecimal, _ => exact Binary.quantity_toDecimal x
  | ⟨.floating .double, x⟩, .bigdecimal, _ => exact Binary.quantity_toDecimal x
  | ⟨.bigdecimal, d⟩, .bigdecimal, _ => rfl

/-- **It keeps no other.** What does not fit is rounded to a number of the format, and that is a
different one. -/
theorem quantity_widen_iff {v : Value} {k : Kind} (h : v.kind ≤ k) :
    k.quantity (v.widen k h) = v.quantity ↔ v.FitsIn k := by
  refine ⟨?_, quantity_widen h⟩
  rintro hkeep n f hn rfl
  obtain ⟨_ | _ | _, m⟩ := v
  · obtain rfl := Option.some.inj hn
    exact Binary.quantity_ofInt_iff.mp hkeep
  · cases hn
  · cases hn

end Value

/-! ## Two steps -/

/-- An exact integer becomes the same decimal by way of a float as directly, with the exponent
zero. -/
theorem Binary.toDecimal_ofInt {fmt : Format} {n : Int}
    (h : fmt.Representable (n.natAbs * 2 ^ fmt.scale)) :
    (ofInt fmt n).toDecimal = Decimal.ofInt n := by
  have hterms := lowestTerms_mul n.natAbs 0 fmt.scale
  rw [Nat.zero_add] at hterms
  rw [ofInt_eq h, toDecimal, hterms]
  simp [lowestTerms, Decimal.ofInt]

namespace Value

theorem widen_bigdecimal (f : FloatKind) (x : Binary f.format)
    (h : Kind.floating f ≤ .bigdecimal) : widen ⟨.floating f, x⟩ .bigdecimal h = x.toDecimal := by
  cases f <;> rfl

/-- **A step that keeps the quantity can be left out.** What comes out is the very same number: not even
the exponent of a decimal tells how it was reached. -/
theorem widen_widen {v : Value} {j k : Kind} (hj : v.kind ≤ j) (hk : j ≤ k) (hfits : v.FitsIn j) :
    widen ⟨j, v.widen j hj⟩ k hk = v.widen k (Nat.le_trans hj hk) := by
  -- only three of the pairs of steps compute anything, and there the number fits the kind between
  match v, j, k, hj, hk with
  | ⟨.integer _, n⟩, .integer _, .integer _, _, _ => rfl
  | ⟨.integer _, n⟩, .integer _, .floating _, _, _ => rfl
  | ⟨.integer _, n⟩, .integer _, .bigdecimal, _, _ => rfl
  | ⟨.integer _, n⟩, .floating .float, .floating .float, _, _ => rfl
  | ⟨.integer _, n⟩, .floating .float, .floating .double, _, _ =>
    exact Binary.convert_ofInt (hfits _ _ rfl rfl) .double
  | ⟨.integer _, n⟩, .floating .double, .floating .double, _, _ => rfl
  | ⟨.integer _, n⟩, .floating f, .bigdecimal, _, _ =>
    exact (widen_bigdecimal f _ _).trans (Binary.toDecimal_ofInt (hfits _ _ rfl rfl))
  | ⟨.integer _, n⟩, .bigdecimal, .bigdecimal, _, _ => rfl
  | ⟨.floating .float, x⟩, .floating .float, .floating .float, _, _ => rfl
  | ⟨.floating .float, x⟩, .floating .float, .floating .double, _, _ => rfl
  | ⟨.floating .float, x⟩, .floating .float, .bigdecimal, _, _ => rfl
  | ⟨.floating .float, x⟩, .floating .double, .floating .double, _, _ => rfl
  | ⟨.floating .float, x⟩, .floating .double, .bigdecimal, _, _ =>
    exact Format.single_embeds_double.toDecimal_convert x
  | ⟨.floating .double, x⟩, .floating .double, .floating .double, _, _ => rfl
  | ⟨.floating .double, x⟩, .floating .double, .bigdecimal, _, _ => rfl
  | ⟨.floating _, x⟩, .bigdecimal, .bigdecimal, _, _ => rfl
  | ⟨.bigdecimal, d⟩, .bigdecimal, .bigdecimal, _, _ => rfl

variable {v : Value} {j k : Kind}

theorem fitsIn_of_aboveFloat (h : k.AboveFloat) : v.FitsIn k := by
  apply fitsIn_of_not_rounds
  rintro ⟨-, rfl⟩
  rcases h with h | h <;> cases h

/-- Of the kinds that a float can be promoted to, only its own does not rank higher. -/
theorem eq_of_not_aboveFloat (hk : Kind.floating .float ≤ k) (h : ¬k.AboveFloat) :
    k = .floating .float := by
  revert hk h
  rcases k with (_ | _ | _) | (_ | _) | _ <;> simp [Kind.AboveFloat] <;> decide

/-- A step that rounds can be left out too if it goes all the way. Then the second step is from
`float` to itself. -/
theorem widen_widen_of_not_aboveFloat (hj : v.kind ≤ j) (hk : j ≤ k)
    (h : ¬(v.kind.Rounds j ∧ k.AboveFloat)) :
    widen ⟨j, v.widen j hj⟩ k hk = v.widen k (Nat.le_trans hj hk) := by
  by_cases hround : v.kind.Rounds j
  · obtain rfl := hround.2
    obtain rfl := eq_of_not_aboveFloat hk fun habove => h ⟨hround, habove⟩
    exact widen_self _
  · exact widen_widen hj hk (fitsIn_of_not_rounds hround)

/-- **From a float upwards nothing more is lost**, so two steps agree with one where the first one kept
the quantity. -/
theorem quantity_widen_widen_iff (hj : v.kind ≤ j) (hk : j ≤ k) (h : k.AboveFloat) :
    k.quantity (widen ⟨j, v.widen j hj⟩ k hk) = k.quantity (v.widen k (Nat.le_trans hj hk))
      ↔ v.FitsIn j := by
  rw [quantity_widen _ (fitsIn_of_aboveFloat h), quantity_widen _ (fitsIn_of_aboveFloat h)]
  exact quantity_widen_iff hj

/-! ## The headline -/

/-- **Promotion is lossless where it can be.** Every value is promoted to every kind of no lower rank. Its
quantity is kept, unless it is an `int32` and the kind is `float`. Then it becomes the nearest float, of
two the one with the even significand, and the quantity is kept if and only if the integer is
`m * 2 ^ e` with a significand `m` of twenty-four bits.

Promoting it further gives the same value as promoting it at once, unless it has gone from `int32` by way
of `float` to a kind beyond. Then the two agree, as values and as quantities, if and only if the integer
is of that form. -/
theorem promotion_lossless {v : Value} {k : Kind} (h : v.kind ≤ k) :
    ∃ w, v.promote k = .ok w ∧ w.kind = k
      ∧ (¬v.kind.Rounds k → w.quantity = v.quantity)
      ∧ (v.kind.Rounds k → ∀ n, v.int? = some n →
          (w.quantity = v.quantity ↔ FitsFloat n)
            ∧ ∃ x : Binary FloatKind.float.format, w = ⟨.floating .float, x⟩ ∧ x.IsNearest n)
      ∧ ∀ l, k ≤ l → ∃ w' u, w.promote l = .ok w' ∧ v.promote l = .ok u
          ∧ (¬(v.kind.Rounds k ∧ l.AboveFloat) → w' = u)
          ∧ (v.kind.Rounds k → l.AboveFloat → ∀ n, v.int? = some n →
              (w' = u ↔ FitsFloat n) ∧ (w'.quantity = u.quantity ↔ FitsFloat n)) := by
  refine ⟨_, promote_eq h, rfl, fun hround => quantity_widen h (fitsIn_of_not_rounds hround),
    fun hround n hn => ⟨(quantity_widen_iff h).trans (fitsIn_iff hround hn), ?_⟩, fun l hl => ?_⟩
  · obtain ⟨j, m⟩ := v
    obtain ⟨rfl, rfl⟩ := hround
    obtain rfl := Option.some.inj hn
    exact ⟨_, rfl, Binary.isNearest_ofInt (FloatKind.two_le_precision _) (m.property.isFinite_ofInt _)⟩
  · refine ⟨_, _, promote_eq hl, promote_eq (Nat.le_trans h hl), ?_, ?_⟩
    · intro hround
      rw [widen_widen_of_not_aboveFloat h hl hround]
    · intro hround habove n hn
      have hquantity := (quantity_widen_widen_iff h hl habove).trans (fitsIn_iff hround hn)
      refine ⟨⟨fun heq => hquantity.mp (congrArg quantity heq), fun hfits => ?_⟩, hquantity⟩
      rw [widen_widen h hl ((fitsIn_iff hround hn).mpr hfits)]

/-- The first integer that is no float, one above the largest significand. -/
theorem not_fitsFloat : ¬FitsFloat 16777217 := by
  rintro ⟨m, e, heq, hm⟩
  cases e with
  | zero =>
    rw [pow_zero, mul_one] at heq
    rw [← heq] at hm
    exact absurd hm (by decide)
  | succ e =>
    rw [pow_succ, ← mul_assoc] at heq
    omega

/-- It is promoted to a float that stands for another number. -/
theorem promotion_lossless_first_rounded :
    (ofInt .int32 16777217 (by decide)).kind ≤ .floating .float
      ∧ ∃ w, (ofInt .int32 16777217 (by decide)).promote (.floating .float) = .ok w
          ∧ w.quantity ≠ (ofInt .int32 16777217 (by decide)).quantity := by
  have hle : (ofInt .int32 16777217 (by decide)).kind ≤ .floating .float := by decide
  obtain ⟨w, hw, -, -, hround, -⟩ := promotion_lossless hle
  exact ⟨hle, w, hw, fun hkeep => not_fitsFloat ((hround ⟨rfl, rfl⟩ _ rfl).1.mp hkeep)⟩

end Value

end StackMachine
