import Mathlib
import StackMachine.Proofs.KindAnalysis
import StackMachine.Proofs.PartialArithmetic

/-!
# When arithmetic fails

Arithmetic tests the promoted operands and computes with them. What it fails for can be told from the
operands as they were given: promotion makes no zero out of another number and no other number out of
a zero, integers stay what they are, and floats have no failures of their own. Only a divisor that
signals is left out: it is compared with zero outside of all contexts, which is no arithmetic error.

* **`Value.isZero_widen`**: a promoted number is zero if and only if it was before.
* **`Operation.exact_iff`**: the exact result on integers, where there is one.
* **`Kind.operate_eq_error_iff`**: the failures of two numbers of one kind, the divisor not being zero.
* **`Value.arithmetic_failure`**: the headline.
-/

namespace StackMachine

/-! ## Zeros of a format -/

/-- Rounding to the nearest integer does not go below an integer that the quotient reaches. -/
theorem le_roundDiv {num den c : Nat} (hd : 0 < den) (h : c * den ≤ num) : c ≤ roundDiv num den := by
  have hquot : c ≤ num / den := (Nat.le_div_iff_mul_le hd).mpr h
  unfold roundDiv
  dsimp only
  split_ifs <;> omega

namespace Format

variable {fmt : Format}

theorem nearest_zero (fmt : Format) (den : Nat) : fmt.nearest 0 den = 0 := by
  simp [nearest, roundDiv]

/-- What is not less than a unit is not rounded to zero. A format without digits would round
everything to zero, hence the hypothesis on the precision. -/
theorem nearest_pos (hp : 0 < fmt.precision) {num den : Nat} (hd : 0 < den) (h : den ≤ num) :
    0 < fmt.nearest num den := by
  have hunit : 1 ≤ num / den := (Nat.one_le_div_iff hd).mpr h
  -- the gap at a magnitude is not larger than the magnitude
  have hgap : fmt.spacing (num / den) ≤ num / den := by
    calc fmt.spacing (num / den) ≤ 2 ^ (num / den).log2 :=
          Nat.pow_le_pow_right Nat.two_pos (by omega)
      _ ≤ num / den := Nat.log2_self_le (by omega)
  have hone : 1 ≤ roundDiv num (den * fmt.spacing (num / den)) := by
    apply le_roundDiv (Nat.mul_pos hd (spacing_pos fmt _))
    calc 1 * (den * fmt.spacing (num / den)) ≤ den * (num / den) := by
          rw [Nat.one_mul]
          exact Nat.mul_le_mul_left den hgap
      _ ≤ num := Nat.mul_div_le num den
  exact Nat.mul_pos hone (spacing_pos fmt _)

end Format

namespace Binary

variable {fmt : Format}

/-- A quotient is rounded to a zero just when its magnitude is. One that overflows becomes an
infinity, which is no zero. -/
theorem isZero_ofUnits (negative : Bool) (num den : Nat) :
    (ofUnits fmt negative num den).isZero = true ↔ fmt.nearest num den = 0 := by
  unfold ofUnits
  dsimp only
  split
  · simp [isZero]
  · next h =>
    constructor
    · intro hzero
      cases hzero
    · intro hzero
      rw [hzero] at h
      exact absurd fmt.representable_zero h

/-- No integer but zero is rounded to zero: every other one is at least a unit in size, whatever
the format. -/
theorem isZero_ofInt (hp : 0 < fmt.precision) (n : Int) : (ofInt fmt n).isZero = (n == 0) := by
  rw [Bool.eq_iff_iff, ofInt, ofRatio, isZero_ofUnits, beq_iff_eq]
  constructor
  · intro hzero
    by_contra hn
    have hunits : 1 ≤ n.natAbs * Nat.pow 2 fmt.scale :=
      Nat.mul_pos (Int.natAbs_pos.mpr hn) (Nat.two_pow_pos _)
    have hpos := Format.nearest_pos hp Nat.one_pos hunits
    omega
  · rintro rfl
    rw [Int.natAbs_zero, Nat.zero_mul]
    exact Format.nearest_zero fmt 1

/-- Halving a numerator as often as it is even does not make it zero. Induction on the halvings
that are allowed. -/
theorem lowestTerms_eq_zero (n limit : Nat) : (lowestTerms n limit).1 = 0 ↔ n = 0 := by
  induction limit generalizing n with
  | zero => rfl
  | succ limit ih =>
    rw [lowestTerms]
    split
    · rw [ih]
      omega
    · rfl

/-- The decimal of a binary number is zero just when the number is, with either sign. -/
theorem isZero_toDecimal (x : Binary fmt) : x.toDecimal.isZero = x.isZero := by
  cases x with
  | nan => rfl
  | infinity negative => rfl
  | finite negative units h =>
    rw [Bool.eq_iff_iff, toDecimal, Decimal.isZero, isZero, beq_iff_eq, beq_iff_eq,
      Nat.mul_eq_zero, lowestTerms_eq_zero]
    simp

end Binary

theorem FloatKind.precision_pos (k : FloatKind) : 0 < k.format.precision := by
  cases k <;> decide

/-! ## Promoted operands -/

/-- No kind but an integer one ranks below an integer kind, so an operation in an integer kind has
two integers as its operands. -/
theorem Kind.isInteger_of_le {j : Kind} {k : IntKind} (h : j ≤ .integer k) : j.isInteger = true := by
  revert h
  rcases j with (_ | _ | _) | (_ | _) | _ <;> cases k <;> decide

namespace Value

/-- **Promotion keeps zeros and makes none.** So it does not matter that the divisor is compared
with zero before it is promoted. One case for each pair of kinds; those in which the number is
rounded are what the lemmas above are for. -/
theorem isZero_widen (v : Value) (k : Kind) (h : v.kind ≤ k) : k.isZero (v.widen k h) = v.isZero := by
  match v, k, h with
  | ⟨.integer _, n⟩, .integer _, _ => rfl
  | ⟨.integer _, n⟩, .floating k, _ => exact Binary.isZero_ofInt k.precision_pos n.val
  | ⟨.integer _, n⟩, .bigdecimal, _ =>
    show (n.val.natAbs == 0) = (n.val == 0)
    rw [Bool.eq_iff_iff, beq_iff_eq, beq_iff_eq, Int.natAbs_eq_zero]
  | ⟨.floating .float, x⟩, .floating .float, _ => rfl
  | ⟨.floating .float, x⟩, .floating .double, _ =>
    exact Format.single_embeds_double.isZero_convert x
  | ⟨.floating .double, x⟩, .floating .double, _ => rfl
  | ⟨.floating .float, x⟩, .bigdecimal, _ => exact Binary.isZero_toDecimal x
  | ⟨.floating .double, x⟩, .bigdecimal, _ => exact Binary.isZero_toDecimal x
  | ⟨.bigdecimal, d⟩, .bigdecimal, _ => rfl

/-- A value of no higher rank than an integer kind is an integer and stays the same one. It lets
the exact result be told of the values as they were given. -/
theorem int?_eq_widen (v : Value) (k : IntKind) (h : v.kind ≤ .integer k) :
    v.int? = some (v.widen (.integer k) h).val := by
  obtain ⟨j, n⟩ := v
  cases j with
  | integer j => rfl
  | floating j => cases Kind.isInteger_of_le h
  | bigdecimal => cases Kind.isInteger_of_le h

/-- Promotion to a kind of no lower rank succeeds, and `widen` is what it gives. -/
theorem promote_eq {v : Value} {k : Kind} (h : v.kind ≤ k) : v.promote k = .ok ⟨k, v.widen k h⟩ := by
  rw [promote, dif_pos h]

end Value

/-- The higher of two kinds is an integer kind just when both are. -/
theorem Kind.isInteger_higher (j k : Kind) :
    (j.higher k).isInteger = (j.isInteger && k.isInteger) := by
  rcases j with (_ | _ | _) | (_ | _) | _ <;> rcases k with (_ | _ | _) | (_ | _) | _ <;> rfl

/-! ## Exact results on integers -/

/-- `q` is the quotient cut towards zero, and `r` is what is left over: it is less than the divisor,
and zero or of the sign of the dividend. -/
structure Truncated (x y q r : Int) : Prop where
  eq : x = y * q + r
  small : r.natAbs < y.natAbs
  sign : r = 0 ∨ (0 < r ∧ 0 < x) ∨ (r < 0 ∧ x < 0)

/-- There is one such pair for every divisor but zero. The left side is the definition by
inequalities and signs, the right one the division of the library. -/
theorem truncated_iff {x y q r : Int} :
    Truncated x y q r ↔ y ≠ 0 ∧ x.tdiv y = q ∧ x.tmod y = r := by
  constructor
  · rintro ⟨heq, hsmall, hsign⟩
    have hy : y ≠ 0 := by omega
    refine ⟨hy, ?_⟩
    -- the library has the uniqueness of quotient and remainder for each sign of the dividend
    rcases Int.le_total 0 x with hx | hx
    · exact (Int.tdiv_tmod_unique hx hy).mpr ⟨by omega, by omega, by omega⟩
    · exact (Int.tdiv_tmod_unique' hx hy).mpr ⟨by omega, by omega, by omega⟩
  · rintro ⟨hy, hq, hr⟩
    rcases Int.le_total 0 x with hx | hx
    · obtain ⟨heq, hpos, hlt⟩ := (Int.tdiv_tmod_unique hx hy).mp ⟨hq, hr⟩
      refine ⟨by omega, by omega, ?_⟩
      by_cases hzero : x = 0
      · left
        rw [← hr, hzero, Int.zero_tmod]
      · omega
    · obtain ⟨heq, hpos, hlt⟩ := (Int.tdiv_tmod_unique' hx hy).mp ⟨hq, hr⟩
      refine ⟨by omega, by omega, ?_⟩
      by_cases hzero : x = 0
      · left
        rw [← hr, hzero, Int.zero_tmod]
      · omega

namespace Operation

/-- The exact result of an operation on integers. -/
inductive Exact : Operation → Int → Int → Int → Prop where
  | add (x y : Int) : Exact .add x y (x + y)
  | sub (x y : Int) : Exact .sub x y (x - y)
  | mul (x y : Int) : Exact .mul x y (x * y)
  | div {x y q r : Int} (h : Truncated x y q r) : Exact .div x y q
  | mod {x y q r : Int} (h : Truncated x y q r) : Exact .mod x y r

/-- Unless it is to divide by zero, an operation has exactly one exact result. What `onInt`
computes with magnitudes and signs is thereby told without them. -/
theorem exact_iff {op : Operation} {x y r : Int} (h : (op.divides && y == 0) = false) :
    op.Exact x y r ↔ op.onInt x y = r := by
  cases op with
  | add | sub | mul =>
    constructor
    · rintro ⟨⟩
      rfl
    · rintro rfl
      constructor
  | div =>
    -- of the truncated pair only one component is the result, and the other one is its witness
    have hy : y ≠ 0 := by simpa [divides] using h
    constructor
    · rintro ⟨⟩
      next hpair => exact (onInt_div x y).trans (truncated_iff.mp hpair).2.1
    · rintro rfl
      exact .div (truncated_iff.mpr ⟨hy, (onInt_div x y).symm, rfl⟩)
  | mod =>
    have hy : y ≠ 0 := by simpa [divides] using h
    constructor
    · rintro ⟨⟩
      next hpair => exact (onInt_mod x y).trans (truncated_iff.mp hpair).2.2
    · rintro rfl
      exact .mod (truncated_iff.mpr ⟨hy, rfl, (onInt_mod x y).symm⟩)

/-- The context in which an operation on decimals is done, and what is done in it. -/
def inContext? : Operation →
    Option (Decimal.Context × (Decimal.Context → Decimal → Decimal → Decimal.Outcome))
  | .add => some (Decimal.exactContext, Decimal.Context.add)
  | .sub => some (Decimal.exactContext, Decimal.Context.sub)
  | .mul => some (Decimal.exactContext, Decimal.Context.mul)
  | .div => some (Decimal.divisionContext, Decimal.Context.div)
  | .mod => none

/-- The operation on two decimals raises a condition that its context traps. -/
def Traps (op : Operation) (d e : Decimal) : Prop :=
  ∃ ctx f, op.inContext? = some (ctx, f) ∧ ∃ c ∈ (f ctx d e).conditions, c ∈ ctx.traps

end Operation

/-! ## Two numbers of one kind -/

namespace Decimal.Context

/-- A context answers with an error just when one of the conditions that arose is among its traps.
-/
theorem trap_eq_error_iff (ctx : Context) (r : Outcome) :
    (∃ t, ctx.trap r = .error t) ↔ ∃ c ∈ r.conditions, c ∈ ctx.traps := by
  unfold trap
  split
  · next h =>
    have hnone := List.filter_eq_nil_iff.mp h
    simp only [reduceCtorEq, exists_false, false_iff, not_exists, not_and]
    intro c hc htrap
    exact hnone c hc (List.contains_iff_mem.mpr htrap)
  · next first others h =>
    have hfirst : first ∈ r.conditions.filter (ctx.traps.contains ·) := by rw [h]; simp
    obtain ⟨hmem, htrap⟩ := List.mem_filter.mp hfirst
    exact ⟨fun _ => ⟨first, hmem, List.contains_iff_mem.mp htrap⟩, fun _ => ⟨_, rfl⟩⟩

end Decimal.Context

namespace Kind

open Value

/-- What stands in the way of an operation on two numbers of one kind, other than a zero. -/
def Obstructed (op : Operation) : (k : Kind) → k.Number → k.Number → Prop
  | .integer k, m, n => ¬k.InRange (op.onInt m.val n.val)
  | .floating _, _, _ => op = .mod
  | .bigdecimal, d, e => op = .mod ∨ op.Traps d e

/-- **The failures of two numbers of one kind.** Integers fail by overflow, floats only at a
remainder, and decimals at a remainder or a trapped condition. -/
theorem operate_eq_error_iff (op : Operation) (k : Kind) (x y : k.Number) :
    (∃ o, k.operate op x y = .error o) ↔ k.Obstructed op x y := by
  cases k with
  | integer k =>
    by_cases h : k.InRange (op.onInt x.val y.val)
    · simp [operate, Obstructed, h]
    · simp [operate, Obstructed, h]
  | floating k => cases op <;> simp [operate, Obstructed]
  | bigdecimal =>
    have hmap (r : Except Decimal.Trapped Decimal) :
        (∃ o, r.mapError Obstacle.trapped = .error o) ↔ ∃ t, r = .error t := by
      cases r <;> simp [Except.mapError]
    have htraps {ctx : Decimal.Context} {f} (h : op.inContext? = some (ctx, f)) :
        (∃ o, (ctx.trap (f ctx x y)).mapError Obstacle.trapped = .error o) ↔ op.Traps x y := by
      rw [hmap, Decimal.Context.trap_eq_error_iff]
      simp [Operation.Traps, h]
    have hdecimal : op ≠ .mod →
        ((∃ o, operate op .bigdecimal x y = .error o) ↔ op.Traps x y) := by
      intro hmod
      cases op with
      | add | sub | mul | div => exact htraps rfl
      | mod => exact absurd rfl hmod
    by_cases hmod : op = .mod
    · subst hmod
      simp [operate, Obstructed]
    · simp [hdecimal hmod, Obstructed, hmod]

end Kind

namespace Value

/-! ## Any two values -/

/-- The exact result on the integers that the values are does not fit their kind. -/
def Overflows (op : Operation) (k : Kind) (a b : Value) : Prop :=
  ∃ j x y r, k = .integer j ∧ a.int? = some x ∧ b.int? = some y ∧ op.Exact x y r ∧ ¬j.InRange r

/-- The operation on the decimals that the values are promoted to is trapped. -/
def TrapsPromoted (op : Operation) (k : Kind) (a b : Value) : Prop :=
  k = .bigdecimal ∧ ∃ d e, a.promote .bigdecimal = .ok ⟨.bigdecimal, d⟩
    ∧ b.promote .bigdecimal = .ok ⟨.bigdecimal, e⟩ ∧ op.Traps d e

/-- What stands in the way of the promoted numbers, told of the values. A zero divisor is
excluded, because it is looked for before the promotion. -/
theorem obstructed_widen_iff {op : Operation} {k : Kind} {a b : Value} (ha : a.kind ≤ k)
    (hb : b.kind ≤ k) (hzero : (op.divides && b.isZero) = false) :
    k.Obstructed op (a.widen k ha) (b.widen k hb)
      ↔ (op = .mod ∧ k.isInteger = false) ∨ Overflows op k a b ∨ TrapsPromoted op k a b := by
  cases k with
  | integer k =>
    have hx := int?_eq_widen a k ha
    have hy := int?_eq_widen b k hb
    -- the promoted divisor is zero only if the divisor was, so the exact result is unique
    have hdivisor : (op.divides && (b.widen (.integer k) hb).val == 0) = false := by
      rw [← hzero, ← isZero_widen b _ hb]
      rfl
    constructor
    · intro hout
      exact .inr (.inl ⟨k, _, _, _, rfl, hx, hy, (Operation.exact_iff hdivisor).mpr rfl, hout⟩)
    · rintro (⟨-, hk⟩ | ⟨j, x, y, r, hk, hx', hy', hr, hout⟩ | ⟨hk, -⟩)
      · cases hk
      · cases hk
        rw [hx] at hx'
        rw [hy] at hy'
        cases hx'
        cases hy'
        rw [← (Operation.exact_iff hdivisor).mp hr] at hout
        exact hout
      · cases hk
  | floating k =>
    -- floats have no remainder and nothing else in their way
    simp [Kind.Obstructed, Kind.isInteger, Overflows, TrapsPromoted]
  | bigdecimal =>
    simp [Kind.Obstructed, Kind.isInteger, Overflows, TrapsPromoted, promote_eq ha, promote_eq hb]

section

variable {op : Operation} {a b : Value}

/-- What arithmetic answers, if it is not to compare a divisor that signals. The failures carry
the operation and both operands, which an obstacle alone does not. -/
theorem exists_apply_eq (h : (op.divides && b.signals) = false) :
    ∃ answer : Except ArithmeticError Value, a.apply op b = answer.mapError .arithmetic
      ∧ attemptApply op a b = .ok (answer.mapError (·.obstacle)) := by
  have hattempt := attemptApply_eq a h
  cases hx : obstacleOrNumber op a b with
  | ok x =>
    rw [hx] at hattempt
    exact ⟨.ok ⟨_, x⟩, apply_of_ok h hx, hattempt⟩
  | error obstacle =>
    rw [hx] at hattempt
    exact ⟨.error ⟨op, a, b, obstacle⟩, apply_of_error h hx, hattempt⟩

/-- Arithmetic fails just when promotion or the operation on the promoted numbers does. -/
theorem apply_eq_error_iff (h : (op.divides && b.signals) = false) :
    (∃ e, a.apply op b = .error e) ↔ ∃ o, obstacleOrNumber op a b = .error o := by
  cases hx : obstacleOrNumber op a b with
  | ok x => simp [apply_of_ok h hx]
  | error obstacle => simp [apply_of_error h hx]

/-- A zero divisor is what arithmetic looks for first, so it hides an overflow or a remainder that
is not defined. -/
theorem apply_of_isZero (hs : (op.divides && b.signals) = false)
    (h : (op.divides && b.isZero) = true) :
    a.apply op b = .error (.arithmetic ⟨op, a, b, .divisorZero⟩) := by
  refine apply_of_error hs ?_
  simp only [obstacleOrNumber, isZero_widen, h, if_true]

/-- With any other divisor, what stands in the way of the promoted numbers decides. Promotion
itself never fails, as both kinds rank no higher than their join. -/
theorem apply_of_not_isZero (hs : (op.divides && b.signals) = false)
    (h : (op.divides && b.isZero) = false) :
    (∃ e, a.apply op b = .error e)
      ↔ (a.kind.join b.kind).Obstructed op (a.widen _ (kind_le_join_left a b))
          (b.widen _ (kind_le_join_right a b)) := by
  rw [apply_eq_error_iff hs, ← Kind.operate_eq_error_iff]
  simp only [obstacleOrNumber, isZero_widen, h]
  rfl

end

/-- The message for a zero divisor names the operation and writes both operands as they were
given. -/
theorem message_divisorZero (a b : Value) :
    ArithmeticError.message ⟨.mod, a, b, .divisorZero⟩
      = s!"mod by zero: {a.literal} mod {b.literal}" := by
  show "mod" ++ " by zero: " ++ (a.literal ++ " " ++ "mod" ++ " " ++ b.literal)
    = "mod by zero: " ++ a.literal ++ " mod " ++ b.literal
  rw [show "mod by zero: " = "mod" ++ " by zero: " by decide,
    show " mod " = " " ++ "mod" ++ " " by decide]
  simp only [String.append_assoc]

/-! ## The headline -/

/-- **When arithmetic fails.** Let `K` be the higher-ranked of the kinds of two values, of which the
second does not signal if it is a divisor. An operation on them gives a value of kind `K` or an
arithmetic error; built from operations that are not defined everywhere it gives the same, so nothing
else can go wrong. It fails if and only if

* it divides, and the divisor as it was given is zero; or
* it is a remainder, and one of the values is no integer; or
* `K` is an integer kind that does not hold the exact result; or
* `K` is the kind of decimals, and the operation on the promoted values raises a condition that its
  context traps.

Of the first two, the first is reported. Sums, differences and products of floats never fail. -/
theorem arithmetic_failure (op : Operation) (a b : Value)
    (hsignals : op = .div ∨ op = .mod → b.signals = false) :
    let K := a.kind.higher b.kind
    (∃ answer : Except ArithmeticError Value, a.apply op b = answer.mapError .arithmetic
        ∧ attemptApply op a b = .ok (answer.mapError (·.obstacle)))
      ∧ (∀ v, a.apply op b = .ok v → v.kind = K)
      ∧ ((∃ e, a.apply op b = .error e)
          ↔ ((op = .div ∨ op = .mod) ∧ b.isZero = true)
            ∨ (op = .mod ∧ (a.kind.isInteger = false ∨ b.kind.isInteger = false))
            ∨ Overflows op K a b
            ∨ TrapsPromoted op K a b)
      ∧ (op = .mod → b.isZero = true → (a.kind.isInteger = false ∨ b.kind.isInteger = false) →
          ∃ e, a.apply op b = .error e
            ∧ e.message = s!"mod by zero: {a.literal} mod {b.literal}")
      ∧ (K.isFloating = true → op = .add ∨ op = .sub ∨ op = .mul → ∃ v, a.apply op b = .ok v) := by
  intro K
  have hdivides : op.divides = true ↔ op = .div ∨ op = .mod := by cases op <;> simp [Operation.divides]
  have hquiet : (op.divides && b.signals) = false := by
    cases hd : op.divides with
    | false => rfl
    | true => rw [hsignals (hdivides.mp hd)]; rfl
  have hK : a.kind.join b.kind = K := Kind.join_eq_higher a.kind b.kind
  have hnotint : K.isInteger = false ↔ a.kind.isInteger = false ∨ b.kind.isInteger = false := by
    rw [Kind.isInteger_higher, Bool.and_eq_false_iff]
  have hiff : (∃ e, a.apply op b = .error e)
      ↔ ((op = .div ∨ op = .mod) ∧ b.isZero = true)
        ∨ (op = .mod ∧ (a.kind.isInteger = false ∨ b.kind.isInteger = false))
        ∨ Overflows op K a b ∨ TrapsPromoted op K a b := by
    -- a zero divisor is looked for first, so it hides all other obstacles
    cases hzero : op.divides && b.isZero with
    | true =>
      rw [apply_of_isZero hquiet hzero]
      rw [Bool.and_eq_true, hdivides] at hzero
      exact ⟨fun _ => .inl hzero, fun _ => ⟨_, rfl⟩⟩
    | false =>
      have hnot : ¬((op = .div ∨ op = .mod) ∧ b.isZero = true) := by
        rw [← hdivides, ← Bool.and_eq_true, hzero]
        exact Bool.false_ne_true
      rw [apply_of_not_isZero hquiet hzero, obstructed_widen_iff _ _ hzero, hK, hnotint]
      exact ⟨.inr, fun h => h.resolve_left hnot⟩
  refine ⟨exists_apply_eq hquiet, fun v => kind_of_apply, hiff, ?_, ?_⟩
  · rintro rfl hzero -
    exact ⟨_, apply_of_isZero hquiet (by rw [hzero]; rfl), message_divisorZero a b⟩
  · intro hfloat hop
    cases happly : a.apply op b with
    | ok v => exact ⟨v, rfl⟩
    | error e =>
      -- a failure would have to be one of the four, and none of them is possible here
      rcases hiff.mp ⟨e, happly⟩ with ⟨hdiv, -⟩ | ⟨hmod, -⟩ | ⟨j, _, _, _, hj, -⟩ | ⟨hdecimal, -⟩
      · rcases hop with rfl | rfl | rfl <;> simp at hdiv
      · rcases hop with rfl | rfl | rfl <;> cases hmod
      · rw [hj] at hfloat
        cases hfloat
      · rw [hdecimal] at hfloat
        cases hfloat

/-- The quotient of the least 8-bit integer and minus one is one too large. It is the only
quotient that overflows in its kind, and no zero is involved. -/
theorem arithmetic_failure_least_quotient :
    Value.signals ⟨.integer .int8, ⟨-1, by decide⟩⟩ = false
      ∧ Overflows .div (.integer .int8) ⟨.integer .int8, ⟨-128, by decide⟩⟩
          ⟨.integer .int8, ⟨-1, by decide⟩⟩
      ∧ ∃ e, Value.apply .div ⟨.integer .int8, ⟨-128, by decide⟩⟩ ⟨.integer .int8, ⟨-1, by decide⟩⟩
          = .error e := by
  have hoverflow : Overflows .div (.integer .int8) ⟨.integer .int8, ⟨-128, by decide⟩⟩
      ⟨.integer .int8, ⟨-1, by decide⟩⟩ :=
    ⟨.int8, -128, -1, 128, rfl, rfl, rfl, .div ⟨rfl, by decide, .inl rfl⟩, by decide⟩
  exact ⟨rfl, hoverflow,
    (arithmetic_failure .div _ _ fun _ => rfl).2.2.1.mpr (.inr (.inr (.inl hoverflow)))⟩

end Value

end StackMachine
