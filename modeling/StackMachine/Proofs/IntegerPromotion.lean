import Mathlib
import StackMachine.Proofs.ExactDecimals
import StackMachine.Proofs.NumericEquality

/-!
# Integers can be widened before or after arithmetic

Integers, floats and decimals are computed by three different rules. What they have in common is that an
exact result that the kind holds is the result. The sum, difference or product of two integers, if it fits
the kind of one of them, is held by every kind that holds both.

* **`Binary.quantity_ofUnits`**: a quotient that is a number of the format is rounded to itself.
* **`Kind.operate_of_holds`**: an exact result that the kind holds, in every kind.
* **`Value.integer_promotion_homomorphic`**: the headline.
-/

namespace StackMachine

/-! ## Floats -/

namespace Binary

variable {fmt : Format} {x y z : Binary fmt} {p q : ℚ}

/-- A quotient that is a number of the format is rounded to itself, whatever the sign of a zero.
It is stated of a number `z` that is known to stand for the quotient. -/
theorem quantity_ofUnits {num den : Nat} {negative : Bool} (hd : 0 < den)
    (hz : z.quantity = .rational (signed negative num / den / 2 ^ fmt.scale)) :
    (ofUnits fmt negative num den).quantity = z.quantity := by
  obtain ⟨t, u, hu, rfl, heq⟩ := exists_finite hz
  have hden : (den : ℚ) ≠ 0 := by exact_mod_cast hd.ne'
  have hunits : signed t u * den = signed negative num := by
    have hquotient := (div_left_inj' (by positivity)).mp heq
    rw [div_eq_iff hden] at hquotient
    exact_mod_cast hquotient.symm
  have hnum : num = u * den := by
    rw [← natAbs_signed negative num, ← hunits, Int.natAbs_mul, natAbs_signed, Int.natAbs_natCast]
  rw [hz, hnum, ofUnits_of_representable hu hd, quantity, signed_mul, Int.cast_mul, Int.cast_natCast,
    mul_div_cancel_right₀ _ hden]

/-- The sum of two numbers of the format, if it is one too. Then nothing is rounded, and the sum
is exact. -/
theorem quantity_add (hx : x.quantity = .rational p) (hy : y.quantity = .rational q)
    (hz : z.quantity = .rational (p + q)) : (x.add y).quantity = .rational (p + q) := by
  obtain ⟨s, u, hu, rfl, rfl⟩ := exists_finite hx
  obtain ⟨t, v, hv, rfl, rfl⟩ := exists_finite hy
  rw [← hz]
  apply quantity_ofUnits one_pos
  rw [hz, signed_of_sum, Quantity.rational.injEq]
  push_cast
  ring

theorem quantity_neg (hy : y.quantity = .rational q) : y.neg.quantity = .rational (-q) := by
  obtain ⟨t, v, hv, rfl, rfl⟩ := exists_finite hy
  rw [neg, quantity, signed_not, Int.cast_neg, neg_div]

theorem quantity_sub (hx : x.quantity = .rational p) (hy : y.quantity = .rational q)
    (hz : z.quantity = .rational (p - q)) : (x.sub y).quantity = .rational (p - q) := by
  rw [sub_eq_add_neg] at hz ⊢
  exact quantity_add hx (quantity_neg hy) hz

/-- The product of two numbers of the format, if it is one too. -/
theorem quantity_mul (hx : x.quantity = .rational p) (hy : y.quantity = .rational q)
    (hz : z.quantity = .rational (p * q)) : (x.mul y).quantity = .rational (p * q) := by
  obtain ⟨s, u, hu, rfl, rfl⟩ := exists_finite hx
  obtain ⟨t, v, hv, rfl, rfl⟩ := exists_finite hy
  rw [← hz]
  apply quantity_ofUnits (Nat.two_pow_pos _)
  rw [hz, ← signed_mul_signed, Quantity.rational.injEq]
  push_cast
  ring

end Binary

/-! ## Numbers of one kind -/

namespace Operation

variable {op : Operation}

/-- The exact result on integers is exact on the rationals that they stand for. Divisions are left
out, since an integer quotient is cut. -/
theorem exactRational_onInt (h : op.divides = false) (m n : Int) :
    op.ExactRational m n (op.onInt m n) := by
  cases op with
  | add =>
    rw [onInt, Int.cast_add]
    exact .add _ _
  | sub =>
    rw [onInt, Int.cast_sub]
    exact .sub _ _
  | mul =>
    rw [onInt, Int.cast_mul]
    exact .mul _ _
  | div => cases h
  | mod => cases h

theorem ExactRational.eq_onInt {m n : Int} {r : ℚ} (h : op.ExactRational m n r) : r = op.onInt m n := by
  cases h with
  | add => exact (Int.cast_add m n).symm
  | sub => exact (Int.cast_sub m n).symm
  | mul => exact (Int.cast_mul m n).symm

end Operation

namespace Kind

/-- The rationals that are results in a kind. A decimal that is read can be longer than a result. -/
def Holds : Kind → ℚ → Prop
  | .bigdecimal, r => Decimal.exactContext.Holds r
  | k, r => ∃ z : k.Number, k.quantity z = .rational r

/-- **An exact result that the kind holds is the result.** One case for each sort of kind; where
the kind rounds, being held means that there is nothing to round. -/
theorem operate_of_holds {op : Operation} {p q r : ℚ} (hr : op.ExactRational p q r) (k : Kind)
    {x y : k.Number} (hx : k.quantity x = .rational p) (hy : k.quantity y = .rational q)
    (h : k.Holds r) : ∃ w, k.operate op x y = .ok w ∧ k.quantity w = .rational r := by
  match k with
  | .integer k =>
    obtain ⟨z, hz⟩ := h
    obtain rfl := Quantity.rational.inj hx
    obtain rfl := Quantity.rational.inj hy
    obtain rfl := hr.eq_onInt
    -- the exact integer is in range because the kind holds it
    have hval : z.val = op.onInt x.val y.val := by exact_mod_cast Quantity.rational.inj hz
    exact ⟨⟨_, hval ▸ z.property⟩, dif_pos _, rfl⟩
  | .floating _ =>
    obtain ⟨z, hz⟩ := h
    cases hr with
    | add => exact ⟨_, rfl, Binary.quantity_add hx hy hz⟩
    | sub => exact ⟨_, rfl, Binary.quantity_sub hx hy hz⟩
    | mul => exact ⟨_, rfl, Binary.quantity_mul hx hy hz⟩
  | .bigdecimal =>
    rcases Decimal.operate_cases hr hx hy with ⟨-, w, hoperate, hexact⟩ | ⟨hholds, -⟩
    · exact ⟨w, hoperate, hexact.quantity⟩
    · exact absurd h hholds

end Kind

/-- Integers are far shorter than decimals can be, so the exact context holds all of them. -/
theorem IntKind.InRange.exactContext_holds {k : IntKind} {n : Int} (h : k.InRange n) :
    Decimal.exactContext.Holds n := by
  rcases eq_or_ne n 0 with rfl | hne
  · exact .inl Int.cast_zero
  have hshort : |n| < 10 ^ 10 := by
    have := h.natAbs_le
    rw [Int.abs_eq_natAbs]
    omega
  have hlog : Int.log 10 |(n : ℚ)| < 10 := by
    apply (Int.lt_zpow_iff_log_lt (by decide) (abs_pos.mpr (by exact_mod_cast hne))).mp
    exact_mod_cast hshort
  refine .inr ⟨n, 0, by rw [zpow_zero, mul_one], hshort.trans_le ?_, by decide, hlog.le.trans (by decide)⟩
  exact pow_le_pow_right₀ (by norm_num) (by decide)

namespace Value

variable {op : Operation} {a b c : Value} {k : Kind}

/-- The result of two integers is the exact one in the higher kind of the two, where there is a
result at all. -/
theorem apply_integers {i j : IntKind} {m : (Kind.integer i).Number} {n : (Kind.integer j).Number}
    (hop : op.divides = false) (h : apply op ⟨.integer i, m⟩ ⟨.integer j, n⟩ = .ok c) :
    ∃ l hrange, (Kind.integer i).join (.integer j) = .integer l
      ∧ c = ofInt l (op.onInt m.val n.val) hrange := by
  obtain ⟨l, hjoin⟩ := Kind.exists_join_integer i j
  have hi : Kind.integer i ≤ .integer l := hjoin ▸ Kind.le_join_left _ _
  have hj : Kind.integer j ≤ .integer l := hjoin ▸ Kind.le_join_right _ _
  rw [apply_eq hop hjoin hi hj, Kind.operate] at h
  split at h
  · next hrange => exact ⟨l, hrange, hjoin, (Except.ok.inj h).symm⟩
  · cases h

/-- Two values of one kind are computed in it, so promoted values are. -/
theorem apply_of_operate (hop : op.divides = false) {x y w : k.Number} (h : k.operate op x y = .ok w) :
    apply op ⟨k, x⟩ ⟨k, y⟩ = .ok ⟨k, w⟩ := by
  have hjoin : k.join k = k := if_pos (Nat.le_refl _)
  have happly := apply_eq (a := ⟨k, x⟩) (b := ⟨k, y⟩) hop hjoin (Nat.le_refl _) (Nat.le_refl _)
  rw [happly, widen_self ⟨k, x⟩, widen_self ⟨k, y⟩, h]
  rfl

/-- A kind that an integer is promoted to holds it, unless it is rounded. The hypothesis excludes
`int32` to `float` alone. -/
theorem holds_of_le {l : IntKind} {n : Int} {hrange : l.InRange n} (hk : (ofInt l n hrange).kind ≤ k)
    (hround : ¬(ofInt l n hrange).kind.Rounds k) : k.Holds n := by
  match k with
  | .integer _ => exact ⟨_, quantity_widen hk (fitsIn_of_not_rounds hround)⟩
  | .floating _ => exact ⟨_, quantity_widen hk (fitsIn_of_not_rounds hround)⟩
  | .bigdecimal => exact hrange.exactContext_holds

/-- **Computing before or after widening never changes an integer result that fits.** Let the sum,
difference or product of two integers be in range, and let `k` be its kind or a higher one, but not the
floats if one of the two is of thirty-two bits. Then both can be promoted to `k` first: there is a result in
`k` too, and it is equal to the promoted one. -/
theorem integer_promotion_homomorphic (ha : a.kind.isInteger = true) (hb : b.kind.isInteger = true)
    (hop : op = .add ∨ op = .sub ∨ op = .mul) (hc : a.apply op b = .ok c) (hk : c.kind ≤ k)
    (hround : ¬(k = .floating .float ∧ (a.kind = .integer .int32 ∨ b.kind = .integer .int32))) :
    ∃ a' b' c' r, a.promote k = .ok a' ∧ b.promote k = .ok b' ∧ c.promote k = .ok c'
      ∧ a'.apply op b' = .ok r ∧ r.kind = k ∧ r.equals c' = .ok true ∧ r.quantity = c.quantity := by
  have hdivides : op.divides = false := by rcases hop with rfl | rfl | rfl <;> rfl
  obtain ⟨i | _ | _, m⟩ := a
  · obtain ⟨j | _ | _, n⟩ := b
    · obtain ⟨l, hrange, hjoin, rfl⟩ := apply_integers hdivides hc
      have hle : (Kind.integer i).join (.integer j) ≤ k := by
        rw [hjoin]
        exact hk
      have hi : Kind.integer i ≤ k := Nat.le_trans (Kind.le_join_left _ _) hle
      have hj : Kind.integer j ≤ k := Nat.le_trans (Kind.le_join_right _ _) hle
      have hround_i : ¬(Kind.integer i).Rounds k := fun h => hround ⟨h.2, .inl h.1⟩
      have hround_j : ¬(Kind.integer j).Rounds k := fun h => hround ⟨h.2, .inr h.1⟩
      -- the kind of the result is that of one operand, so it is not rounded either
      have hround_l : ¬(Kind.integer l).Rounds k := by
        rcases Kind.join_eq_or (.integer i) (.integer j) with h | h
        · rwa [← hjoin, h]
        · rwa [← hjoin, h]
      have hm := quantity_widen (v := ⟨.integer i, m⟩) hi (fitsIn_of_not_rounds hround_i)
      have hn := quantity_widen (v := ⟨.integer j, n⟩) hj (fitsIn_of_not_rounds hround_j)
      have hwiden := quantity_widen hk (fitsIn_of_not_rounds hround_l)
      -- the operation in `k` has the exact result, and so does the promoted one
      obtain ⟨w, hoperate, hw⟩ := Kind.operate_of_holds
        (Operation.exactRational_onInt hdivides m.val n.val) k hm hn (holds_of_le hk hround_l)
      refine ⟨_, _, _, ⟨k, w⟩, promote_eq hi, promote_eq hj, promote_eq hk,
        apply_of_operate hdivides hoperate, rfl, ?_, hw⟩
      refine (equals_eq_true_iff k.not_clash_self).mpr ⟨fun hnan => ?_, hw.trans hwiden.symm⟩
      cases hnan.symm.trans hw
    · cases hb
    · cases hb
  · cases ha
  · cases ha

/-- The least integer of all, as a product of operands of two kinds. -/
theorem integer_promotion_homomorphic_least :
    apply .mul (ofInt .int16 (-32768) (by decide)) (ofInt .int32 65536 (by decide))
        = .ok (ofInt .int32 (-2147483648) (by decide))
      ∧ ∃ a' b' c' r, (ofInt .int16 (-32768) (by decide)).promote (.floating .double) = .ok a'
          ∧ (ofInt .int32 65536 (by decide)).promote (.floating .double) = .ok b'
          ∧ (ofInt .int32 (-2147483648) (by decide)).promote (.floating .double) = .ok c'
          ∧ a'.apply .mul b' = .ok r ∧ r.kind = .floating .double ∧ r.equals c' = .ok true
          ∧ r.quantity = .rational (-2147483648 : Int) := by
  have hproduct : apply .mul (ofInt .int16 (-32768) (by decide)) (ofInt .int32 65536 (by decide))
      = .ok (ofInt .int32 (-2147483648) (by decide)) := rfl
  exact ⟨hproduct, integer_promotion_homomorphic rfl rfl (.inr (.inr rfl)) hproduct (by decide) (by decide)⟩

end Value

end StackMachine
