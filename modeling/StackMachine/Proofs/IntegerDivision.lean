import Mathlib
import StackMachine.Proofs.NumericEquality
import StackMachine.Proofs.ExactDecimals

/-!
# Integer quotients and remainders fit together

The remainder of a division lies between zero and the dividend, so it is in range whenever the dividend is,
and so is the product of divisor and quotient, which is the rest of the dividend. The quotient lies between
the dividend and its negation. Only the negation of the least integer of a kind is out of range.

* **`tdiv_eq_towardsZero`**: quotients of integers as rationals without their fractions.
* **`IntKind.InRange.between`**: what lies between zero and an integer in range.
* **`IntKind.InRange.tdiv_iff`**: the quotients that are out of range.
* **`Value.apply_ofInt`**: arithmetic on two integers of any kinds.
* **`Value.integer_division`**: the headline.
-/

namespace StackMachine

/-! ## Quotients -/

/-- A rational without its fraction: the next whole number on the way to zero. -/
def towardsZero (r : ℚ) : Int :=
  if 0 ≤ r then ⌊r⌋ else ⌈r⌉

theorem towardsZero_neg (r : ℚ) : towardsZero (-r) = -towardsZero r := by
  unfold towardsZero
  rcases lt_trichotomy r 0 with hneg | rfl | hpos
  · rw [if_pos (by linarith), if_neg (by linarith), Int.floor_neg]
  · simp
  · rw [if_neg (by linarith), if_pos hpos.le, Int.ceil_neg]

theorem towardsZero_natCast_div (m n : Nat) : towardsZero ((m : ℚ) / n) = (m / n : Nat) := by
  rw [towardsZero, if_pos (by positivity)]
  exact Rat.floor_natCast_div_natCast m n

/-- **The quotient of two integers is the rational one without its fraction**, whatever the signs
are. Division by zero gives zero on both sides. -/
theorem tdiv_eq_towardsZero (x y : Int) : x.tdiv y = towardsZero (x / y) := by
  -- signs are taken out of both sides in the same way
  obtain ⟨m, rfl | rfl⟩ := Int.eq_nat_or_neg x <;> obtain ⟨n, rfl | rfl⟩ := Int.eq_nat_or_neg y <;>
    simp only [Int.neg_tdiv, Int.tdiv_neg, Int.cast_neg, Int.cast_natCast, neg_div, div_neg,
      towardsZero_neg, towardsZero_natCast_div, Int.ofNat_tdiv]

/-! ## Ranges -/

namespace IntKind

theorem least_neg (k : IntKind) : k.least < 0 := by
  cases k <;> decide

theorem greatest_eq (k : IntKind) : k.greatest = -k.least - 1 := by
  cases k <;> rfl

namespace InRange

variable {k : IntKind} {x y : Int}

/-- What lies between zero and an integer in range is in range, as every range includes zero. -/
theorem between {n : Int} (h : k.InRange x) (hn : (0 ≤ n ∧ n ≤ x) ∨ (x ≤ n ∧ n ≤ 0)) :
    k.InRange n := by
  have hleast := k.least_neg
  have hgreatest := k.greatest_eq
  unfold InRange at *
  omega

/-- The remainder lies between zero and the dividend, since it has the sign of the dividend and is
no larger. -/
theorem tmod_between (x y : Int) :
    (0 ≤ x.tmod y ∧ x.tmod y ≤ x) ∨ (x ≤ x.tmod y ∧ x.tmod y ≤ 0) := by
  have habs : (x.tmod y).natAbs ≤ x.natAbs := by
    rw [Int.natAbs_tmod]
    exact Nat.mod_le _ _
  rcases Int.le_total 0 x with hx | hx
  · have := Int.tmod_nonneg y hx
    omega
  · have := Int.tmod_nonneg y (Int.neg_nonneg_of_nonpos hx)
    rw [Int.neg_tmod] at this
    omega

/-- Remainders are never out of range, for they lie between zero and the dividend. -/
theorem tmod (h : k.InRange x) (y : Int) : k.InRange (x.tmod y) :=
  h.between (tmod_between x y)

/-- Neither is what the remainder leaves of the dividend. So the law that dividend, quotient and
remainder obey can be checked in the machine itself. -/
theorem mul_tdiv (h : k.InRange x) (y : Int) : k.InRange (y * x.tdiv y) := by
  apply h.between
  have hsplit := Int.tmod_add_mul_tdiv x y
  have hrest := tmod_between x y
  omega

/-- **Quotients are out of range only for the least integer**, divided by minus one. Every other
quotient is no larger than the dividend and of a sign that has room for it. -/
theorem tdiv_iff (h : k.InRange x) (hy : y ≠ 0) :
    k.InRange (x.tdiv y) ↔ ¬(x = k.least ∧ y = -1) := by
  have hleast := k.least_neg
  have hgreatest := k.greatest_eq
  unfold InRange at *
  by_cases hone : y = -1
  · rw [hone, Int.tdiv_neg, Int.tdiv_one]
    omega
  · by_cases hself : y = 1
    · rw [hself, Int.tdiv_one]
      omega
    · -- any other divisor leaves half of the dividend at most
      have hhalf : (x.tdiv y).natAbs ≤ x.natAbs / 2 := by
        rw [Int.natAbs_tdiv]
        exact Nat.div_le_div_left (by omega) (by decide)
      omega

end InRange

end IntKind

/-! ## Arithmetic on integers -/

namespace Value

/-- A value that is an integer is one of some integer kind, in range. -/
theorem exists_ofInt {v : Value} {n : Int} (h : v.int? = some n) : ∃ k hn, v = ofInt k n hn := by
  obtain ⟨k | _ | _, m⟩ := v
  · obtain rfl := Option.some.inj h
    exact ⟨k, m.property, rfl⟩
  · cases h
  · cases h

section

variable {i j k : IntKind} {x y : Int}

/-- **Two integers of any kinds are computed with in the higher kind**, where their exact result `n` is
in range or not. -/
theorem apply_ofInt {op : Operation} {n : Int} (hn : op.onInt x y = n) (hx : i.InRange x)
    (hy : j.InRange y) (hk : (Kind.integer i).join (.integer j) = .integer k)
    (hzero : op.divides = true → y ≠ 0) :
    (ofInt i x hx).apply op (ofInt j y hy)
      = if h : k.InRange n then .ok (ofInt k n h)
        else .error (.arithmetic ⟨op, ofInt i x hx, ofInt j y hy, .outOfRange n⟩) := by
  subst hn
  have hi : Kind.integer i ≤ .integer k := hk ▸ Kind.le_join_left _ _
  have hj : Kind.integer j ≤ .integer k := hk ▸ Kind.le_join_right _ _
  have hdivisor : (op.divides && (ofInt j y hy).isZero) = false := by
    rw [Bool.and_eq_false_imp]
    exact fun h => beq_false_of_ne (hzero h)
  have hsignals : (op.divides && (ofInt j y hy).signals) = false := Bool.and_false _
  rw [apply_eq_operate hsignals hdivisor hk hi hj, Kind.operate]
  show Except.mapError _ (Except.map _ (if h : k.InRange (op.onInt x y) then _ else _)) = _
  split <;> rfl

/-- An operation on two integers whose exact result is in range has this result, in the higher
kind of the two. -/
theorem apply_ofInt_of_inRange {op : Operation} {n : Int} (hn : op.onInt x y = n) (hx : i.InRange x)
    (hy : j.InRange y) (hk : (Kind.integer i).join (.integer j) = .integer k)
    (hzero : op.divides = true → y ≠ 0) (h : k.InRange n) :
    (ofInt i x hx).apply op (ofInt j y hy) = .ok (ofInt k n h) := by
  rw [apply_ofInt hn hx hy hk hzero, dif_pos h]

/-- A quotient has a result if and only if it is in range, and it is this one. -/
theorem apply_div_eq_ok_iff (hx : i.InRange x) (hy : j.InRange y)
    (hk : (Kind.integer i).join (.integer j) = .integer k) (hzero : y ≠ 0) {v : Value} :
    (ofInt i x hx).apply .div (ofInt j y hy) = .ok v
      ↔ ∃ hq : k.InRange (x.tdiv y), v = ofInt k (x.tdiv y) hq := by
  rw [apply_ofInt (Operation.onInt_div x y) hx hy hk fun _ => hzero]
  constructor
  · intro h
    split at h
    · next hq => exact ⟨hq, (Except.ok.inj h).symm⟩
    · cases h
  · rintro ⟨hq, rfl⟩
    exact dif_pos hq

end

/-- The same integer in two kinds is equal to itself. -/
theorem equals_ofInt {i j : IntKind} {n : Int} (hi : i.InRange n) (hj : j.InRange n) :
    (ofInt i n hi).equals (ofInt j n hj) = .ok true := by
  have hclash : ¬(Kind.integer i).Clash (.integer j) := by
    rintro (⟨-, h⟩ | ⟨h, -⟩) <;> cases h
  refine (equals_eq_true_iff hclash).mpr ⟨fun hnan => ?_, rfl⟩
  cases hnan

/-! ## The headline -/

/-- **Integer quotients and remainders fit together.** Let `a` and `b` be the integers `x` and `y` of any
two integer kinds, let `K` be the higher-ranked one, and let `y` not be zero.

* There is always a remainder, an integer of kind `K`. It is less than the divisor in magnitude, and it is
  zero or has the sign of the dividend.
* There is a quotient unless the dividend is the least integer of `K` and the divisor is minus one. It is
  an integer of kind `K`, the rational quotient without its fraction.
* If there is a quotient, it can be multiplied by the divisor and the remainder can be added to the
  product. The sum is an integer of kind `K` again, and it equals the dividend. -/
theorem integer_division {a b : Value} {x y : Int} (ha : a.int? = some x) (hb : b.int? = some y)
    (hy : y ≠ 0) :
    ∃ K, a.kind.higher b.kind = .integer K ∧ ∃ r hr,
      a.apply .mod b = .ok (ofInt K r hr) ∧ |r| < |y| ∧ (r = 0 ∨ r.sign = x.sign)
        ∧ ((∃ e, a.apply .div b = .error e) ↔ x = K.least ∧ y = -1)
        ∧ (¬(x = K.least ∧ y = -1) → ∃ hq,
            a.apply .div b = .ok (ofInt K (towardsZero (x / y)) hq))
        ∧ ∀ q, a.apply .div b = .ok q → ∃ p s, b.apply .mul q = .ok p
            ∧ p.apply .add (ofInt K r hr) = .ok s ∧ s.kind = .integer K ∧ s.int? = some x
            ∧ s.equals a = .ok true := by
  obtain ⟨i, hx, rfl⟩ := exists_ofInt ha
  obtain ⟨j, hy', rfl⟩ := exists_ofInt hb
  obtain ⟨K, hK⟩ := Kind.exists_join_integer i j
  have hi : Kind.integer i ≤ .integer K := hK ▸ Kind.le_join_left _ _
  have hj : Kind.integer j ≤ .integer K := hK ▸ Kind.le_join_right _ _
  have hxK : K.InRange x := hx.widen (Kind.bits_le_of_le hi)
  -- quotient and remainder together; their bounds and signs are read off the pair
  have hpair : Truncated x y (x.tdiv y) (x.tmod y) := truncated_iff.mpr ⟨hy, rfl, rfl⟩
  refine ⟨K, (Kind.join_eq_higher _ _).symm.trans hK, x.tmod y, hxK.tmod y,
    apply_ofInt_of_inRange (Operation.onInt_mod x y) hx hy' hK (fun _ => hy) _, ?_, ?_, ?_, ?_, ?_⟩
  · rw [Int.abs_eq_natAbs, Int.abs_eq_natAbs]
    exact_mod_cast hpair.small
  · rcases hpair.sign with hzero | ⟨hr, hx'⟩ | ⟨hr, hx'⟩
    · exact .inl hzero
    · exact .inr ((Int.sign_eq_one_of_pos hr).trans (Int.sign_eq_one_of_pos hx').symm)
    · exact .inr ((Int.sign_eq_neg_one_of_neg hr).trans (Int.sign_eq_neg_one_of_neg hx').symm)
  · rw [apply_ofInt (Operation.onInt_div x y) hx hy' hK fun _ => hy, ← not_iff_not, ← hxK.tdiv_iff hy]
    split
    · next hq => exact ⟨fun _ => hq, fun _ ⟨e, he⟩ => by cases he⟩
    · next hq => exact ⟨fun hnone => absurd ⟨_, rfl⟩ hnone, fun h => absurd h hq⟩
  · intro hfits
    rw [← tdiv_eq_towardsZero]
    exact ⟨(hxK.tdiv_iff hy).mpr hfits, (apply_div_eq_ok_iff hx hy' hK hy).mpr ⟨_, rfl⟩⟩
  · intro q hq
    obtain ⟨hqK, rfl⟩ := (apply_div_eq_ok_iff hx hy' hK hy).mp hq
    -- the dividend is put together again in the machine: product, then sum, neither out of range
    have htimes : Operation.onInt .mul y (x.tdiv y) = y * x.tdiv y := rfl
    have hproduct := apply_ofInt_of_inRange htimes hy' hqK (Kind.join_eq_right hj)
      (fun h => by cases h) (hxK.mul_tdiv y)
    have hwhole : Operation.onInt .add (y * x.tdiv y) (x.tmod y) = x := Int.mul_tdiv_add_tmod x y
    have hsum := apply_ofInt_of_inRange hwhole (hxK.mul_tdiv y) (hxK.tmod y)
      (Kind.join_eq_right (Nat.le_refl _)) (fun h => by cases h) hxK
    exact ⟨_, _, hproduct, hsum, rfl, rfl, equals_ofInt hxK hx⟩

/-- The least integer of eight bits is divided as one of sixteen bits. -/
theorem integer_division_least :
    (ofInt .int8 (-128) (by decide)).int? = some (-128)
      ∧ (ofInt .int16 (-1) (by decide)).int? = some (-1) ∧ (-1 : Int) ≠ 0
      ∧ ∃ hq, apply .div (ofInt .int8 (-128) (by decide)) (ofInt .int16 (-1) (by decide))
          = .ok (ofInt .int16 (towardsZero (((-128 : Int) : ℚ) / ((-1 : Int) : ℚ))) hq) := by
  refine ⟨rfl, rfl, by decide, ?_⟩
  obtain ⟨K, hK, -, -, -, -, -, -, hdiv, -⟩ := integer_division
    (rfl : (ofInt .int8 (-128) (by decide)).int? = some (-128))
    (rfl : (ofInt .int16 (-1) (by decide)).int? = some (-1)) (by decide)
  obtain rfl := Kind.integer.inj hK
  exact hdiv (by decide)

end Value

end StackMachine
