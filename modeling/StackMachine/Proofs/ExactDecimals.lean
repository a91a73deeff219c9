import Mathlib
import StackMachine.Proofs.DecimalRounding
import StackMachine.Proofs.LosslessPromotion

/-!
# Decimal sums, differences and products are exact or fail

A product is an exact coefficient that is rounded once. A sum is, too, unless the smaller operand lies so
far below the other one that it is replaced by a single digit: then neither the sum nor its replacement is
held by the context, so both are inexact.

* **`Decimal.Context.not_holds_of_tail`**: digits so far below cannot be held.
* **`Decimal.Context.add_faithful`**, **`Decimal.Context.mul_faithful`**: decimals in a context.
* **`Decimal.operate_cases`**: a result, or a trap that tells of inexactness.
* **`Value.decimal_arithmetic_exact`**: the headline.
-/

namespace StackMachine

namespace Decimal.Context

variable {ctx : Context} {s t : Bool} {c d : Nat} {e f : Int}

/-! ## Products -/

/-- The product of the coefficients is exact before it is rounded, so rounding faithfully is all
there is to it. -/
theorem mul_faithful (hp : 0 < ctx.precision) :
    ctx.Faithful (ctx.mul (.finite s c e) (.finite t d f))
      (signed s c * 10 ^ e * (signed t d * 10 ^ f)) := by
  apply round_faithful hp one_ne_zero
  rw [← signed_mul_signed, zpow_add₀ (by norm_num), Nat.cast_one, div_one]
  push_cast
  ring

/-! ## Sums -/

/-- A rational with a tail that is not zero and lies below the precision is not held. Whatever the
tail is, the digits from the leading one to the last of the tail are too many. -/
theorem not_holds_of_tail {m : Int} {δ : ℚ} (hm : m ≠ 0) (hne : δ ≠ 0)
    (hδ : |δ| < 10 ^ (e - ctx.precision - 1)) : ¬ctx.Holds (m * 10 ^ e + δ) := by
  -- the tail takes less than one digit off the head
  have hlead : (10 : ℚ) ^ (e - 1) < |m * 10 ^ e + δ| := by
    have hhead := ten_zpow_le_abs hm e
    have htail : (10 : ℚ) ^ (e - ctx.precision - 1) ≤ 10 ^ (e - 1) :=
      zpow_le_zpow_right₀ (by norm_num) (by omega)
    have hten : (10 : ℚ) ^ e = 10 ^ (e - 1) * 10 := by rw [← zpow_add_one₀ (by norm_num), sub_add_cancel]
    have hpos := ten_zpow_pos (e - 1)
    have htriangle := abs_sub_abs_le_abs_sub ((m : ℚ) * 10 ^ e) (-δ)
    rw [abs_neg, sub_neg_eq_add] at htriangle
    linarith
  have hpos : 0 < |(m : ℚ) * 10 ^ e + δ| := (ten_zpow_pos _).trans hlead
  rw [holds_iff (abs_pos.mp hpos)]
  rintro ⟨-, c, hr⟩
  -- so a sum that is held is a multiple of a place above the tail, as the head is
  generalize hq : ctx.place ((m : ℚ) * 10 ^ e + δ) = q at hr
  have hplace : e - ctx.precision ≤ q := by
    have hlog := (Int.zpow_le_iff_le_log (by decide : 1 < 10) hpos).mp (by exact_mod_cast hlead.le)
    have hle := le_max_left (Int.log 10 |(m : ℚ) * 10 ^ e + δ| - ctx.precision + 1) ctx.tiny
    unfold place at hq
    omega
  have hmultiple : δ = (c * 10 ^ (q - (e - ctx.precision)).toNat
      - m * 10 ^ (e - (e - ctx.precision)).toNat : Int) * 10 ^ (e - ctx.precision) := by
    have hdiff : δ = c * 10 ^ q - m * 10 ^ e := by linarith
    rw [hdiff, ten_zpow_eq hplace, ten_zpow_eq (by omega : e - ctx.precision ≤ e)]
    push_cast
    ring
  have hle : (10 : ℚ) ^ (e - ctx.precision) ≤ |δ| := by
    rw [hmultiple]
    apply ten_zpow_le_abs
    intro hzero
    rw [hzero, Int.cast_zero, zero_mul] at hmultiple
    exact hne hmultiple
  have := (zpow_lt_zpow_iff_right₀ (by norm_num : (1 : ℚ) < 10)).mp (hle.trans_lt hδ)
  omega

theorem signed_ne_zero (s : Bool) (hc : c ≠ 0) : signed s c ≠ 0 := by
  rw [← Int.natAbs_ne_zero, natAbs_signed]
  exact hc

/-- A decimal is smaller than the power of ten above its leading digit. Zero is included. -/
theorem abs_decimal_lt (t : Bool) {p : Int} (h : f + digitCount d ≤ p) :
    |(signed t d : ℚ) * 10 ^ f| < 10 ^ p := by
  have hd : (d : ℚ) < 10 ^ digitCount d := by exact_mod_cast lt_ten_pow_digitCount d
  rw [abs_mul, abs_signed, abs_of_pos (ten_zpow_pos f)]
  calc (d : ℚ) * 10 ^ f < 10 ^ digitCount d * 10 ^ f := mul_lt_mul_of_pos_right hd (ten_zpow_pos f)
    _ = 10 ^ (f + digitCount d) := by rw [add_comm, zpow_add₀ (by norm_num), zpow_natCast]
    _ ≤ 10 ^ p := zpow_le_zpow_right₀ (by norm_num) h

/-- No digit of the second operand lies within the precision of the first one, so their sum has
more digits than the context holds. -/
theorem not_holds_of_below (s t : Bool) (hc : c ≠ 0) (hd : d ≠ 0)
    (h : f + digitCount d ≤ e - ctx.precision - 1) :
    ¬ctx.Holds (signed s c * 10 ^ e + signed t d * 10 ^ f) := by
  apply not_holds_of_tail (signed_ne_zero s hc) _ (abs_decimal_lt t h)
  exact mul_ne_zero (by exact_mod_cast signed_ne_zero t hd) (ten_zpow_pos f).ne'

/-- What is rounded is the sum of the first operand and of what the second one takes part with. It
may be a stand-in for a second operand that is far smaller. -/
theorem addOrdered_reaching (hp : 0 < ctx.precision) {p : Nat × Int}
    (hreach : ctx.reaching c e d f = p) (hle : p.2 ≤ e) :
    ctx.Faithful (ctx.addOrdered s c e t d f) (signed s c * 10 ^ e + signed t p.1 * 10 ^ p.2) := by
  simp only [addOrdered, hreach]
  apply round_faithful hp one_ne_zero
  have hshift : (if c = 0 then 0 else c * Nat.pow 10 (e - p.2).toNat) = c * 10 ^ (e - p.2).toNat := by
    split
    · next h => rw [h, Nat.zero_mul]
    · rfl
  rw [signed_of_sum, hshift, signed_mul, ten_zpow_eq hle, Nat.cast_one, div_one]
  push_cast
  ring

/-- The sum of two decimals, the first of which has the larger exponent. Where the second is
replaced by a stand-in, neither the sum with it nor the true sum is held, and the outcome is
inexact for both. -/
theorem addOrdered_faithful (hp : 0 < ctx.precision) (hle : f ≤ e) :
    ctx.Faithful (ctx.addOrdered s c e t d f) (signed s c * 10 ^ e + signed t d * 10 ^ f) := by
  by_cases hreach : c ≠ 0 ∧ f + digitCount d < e - ctx.precision - 2
  · have hfaithful := addOrdered_reaching (s := s) (t := t) hp (if_pos hreach) (by dsimp only; omega)
    dsimp only at hfaithful
    rcases Nat.eq_zero_or_pos d with rfl | hd
    · -- a zero adds nothing, however far below it lies
      have hzero (e : Int) : (signed t 0 : ℚ) * 10 ^ e = 0 := by cases t <;> simp
      rw [Nat.zero_min, hzero] at hfaithful
      rwa [hzero]
    · -- neither the sum nor the one that is computed instead can be held
      have hmin : min d 1 = 1 := Nat.min_eq_right hd
      have hcount : digitCount 1 = 1 := rfl
      rw [hmin] at hfaithful
      cases hfaithful with
      | exact hholds _ => exact absurd hholds (not_holds_of_below s t hreach.1 one_ne_zero (by omega))
      | inexact _ hmem => exact .inexact (not_holds_of_below s t hreach.1 hd.ne' (by omega)) hmem
  · exact addOrdered_reaching hp (if_neg hreach) hle

/-- The sum in any order: the operands are exchanged where the second has the larger exponent. -/
theorem add_faithful (hp : 0 < ctx.precision) :
    ctx.Faithful (ctx.add (.finite s c e) (.finite t d f)) (signed s c * 10 ^ e + signed t d * 10 ^ f) := by
  show ctx.Faithful
    (if f ≤ e then ctx.addOrdered s c e t d f else ctx.addOrdered t d f s c e) _
  split
  · next h => exact addOrdered_faithful hp h
  · next h =>
    rw [add_comm]
    exact addOrdered_faithful hp (by omega)

/-- A difference is a sum with the sign of the second operand changed. -/
theorem sub_faithful (hp : 0 < ctx.precision) :
    ctx.Faithful (ctx.sub (.finite s c e) (.finite t d f)) (signed s c * 10 ^ e - signed t d * 10 ^ f) := by
  show ctx.Faithful (ctx.add (.finite s c e) (.finite (!t) d f)) _
  have hneg : (signed s c : ℚ) * 10 ^ e - signed t d * 10 ^ f
      = signed s c * 10 ^ e + signed (!t) d * 10 ^ f := by
    rw [signed_not, Int.cast_neg, neg_mul, sub_eq_add_neg]
  rw [hneg]
  exact add_faithful hp

/-! ## Traps -/

theorem trap_of_isExact {o : Outcome} {r : ℚ} (h : o.IsExact ctx r) : ctx.trap o = .ok o.value := by
  rw [trap, h.conditions]
  rfl

theorem trap_of_mem {o : Outcome} {condition : Condition} (hmem : condition ∈ o.conditions)
    (htrap : condition ∈ ctx.traps) :
    ∃ trapped, ctx.trap o = .error trapped ∧ condition ∈ trapped.first :: trapped.others := by
  have hfilter : condition ∈ o.conditions.filter (ctx.traps.contains ·) :=
    List.mem_filter.mpr ⟨hmem, List.contains_iff_mem.mpr htrap⟩
  unfold trap
  split
  · next h =>
    rw [h] at hfilter
    cases hfilter
  · next first others h =>
    rw [h] at hfilter
    exact ⟨_, rfl, hfilter⟩

end Decimal.Context

/-- The exact result of an operation that does not divide. -/
inductive Operation.ExactRational : Operation → ℚ → ℚ → ℚ → Prop where
  | add (x y : ℚ) : ExactRational .add x y (x + y)
  | sub (x y : ℚ) : ExactRational .sub x y (x - y)
  | mul (x y : ℚ) : ExactRational .mul x y (x * y)

section

variable {op : Operation} {x y r : ℚ}

theorem Operation.ExactRational.divides (h : op.ExactRational x y r) : op.divides = false := by
  cases h <;> rfl

/-- **Two decimals are added, subtracted and multiplied faithfully.** -/
theorem Decimal.operate_faithful (hr : op.ExactRational x y r) {d e : Decimal}
    (hd : d.quantity = .rational x) (he : e.quantity = .rational y) :
    ∃ o, Kind.operate op .bigdecimal d e = (exactContext.trap o).mapError .trapped
      ∧ exactContext.Faithful o r := by
  have hp : 0 < exactContext.precision := by decide
  obtain ⟨s, c, e₁, rfl, rfl⟩ := exists_finite hd
  obtain ⟨t, c', e₂, rfl, rfl⟩ := exists_finite he
  cases hr with
  | add => exact ⟨_, rfl, Context.add_faithful hp⟩
  | sub => exact ⟨_, rfl, Context.sub_faithful hp⟩
  | mul => exact ⟨_, rfl, Context.mul_faithful hp⟩

/-- **Decimals that the context holds are the result, and others are trapped.** -/
theorem Decimal.operate_cases (hr : op.ExactRational x y r) {d e : Decimal}
    (hd : d.quantity = .rational x) (he : e.quantity = .rational y) :
    (exactContext.Holds r ∧ ∃ w : Decimal, Kind.operate op .bigdecimal d e = .ok w
        ∧ Outcome.IsExact ⟨w, []⟩ exactContext r)
      ∨ (¬exactContext.Holds r ∧ ∃ trapped, Kind.operate op .bigdecimal d e = .error (.trapped trapped)
        ∧ .inexact ∈ trapped.first :: trapped.others) := by
  obtain ⟨o, hoperate, hfaithful⟩ := operate_faithful hr hd he
  cases hfaithful with
  | exact hholds hexact =>
    rw [Context.trap_of_isExact hexact] at hoperate
    exact .inl ⟨hholds, o.value, hoperate, ⟨hexact.quantity, hexact.digits, rfl⟩⟩
  | inexact hholds hmem =>
    have htraps : .inexact ∈ exactContext.traps := by decide
    obtain ⟨trapped, htrap, hinexact⟩ := Context.trap_of_mem hmem htraps
    rw [htrap] at hoperate
    exact .inr ⟨hholds, trapped, hoperate, hinexact⟩

end

/-! ## Values -/

namespace Kind

variable {j k : Kind}

theorem eq_of_le_of_le (hjk : j ≤ k) (hkj : k ≤ j) : j = k := by
  revert hjk hkj
  rcases j with (_ | _ | _) | (_ | _) | _ <;> rcases k with (_ | _ | _) | (_ | _) | _ <;> decide

/-- The higher of two kinds, if it is known which one that is. -/
theorem join_eq_right (h : j ≤ k) : j.join k = k := by
  unfold join
  split
  · next hkj => exact eq_of_le_of_le h hkj
  · rfl

theorem join_comm (j k : Kind) : j.join k = k.join j := by
  rcases Nat.le_total j.rank k.rank with h | h
  · rw [join_eq_right h]
    exact (if_pos h).symm
  · rw [join_eq_right h]
    exact if_pos h

theorem le_bigdecimal (k : Kind) : k ≤ .bigdecimal := by
  rcases k with (_ | _ | _) | (_ | _) | _ <;> decide

theorem join_bigdecimal (h : j = .bigdecimal ∨ k = .bigdecimal) : j.join k = .bigdecimal := by
  rcases h with rfl | rfl
  · exact if_pos k.le_bigdecimal
  · exact join_eq_right j.le_bigdecimal

end Kind

namespace Value

/-- An operation whose divisor is neither zero nor signals, in the higher kind of the two. It is
done on the promoted numbers, and a failure tells the operands as they were given. -/
theorem apply_eq_operate {op : Operation} {a b : Value} {k : Kind}
    (hsignals : (op.divides && b.signals) = false) (hzero : (op.divides && b.isZero) = false)
    (hk : a.kind.join b.kind = k) (ha : a.kind ≤ k) (hb : b.kind ≤ k) :
    a.apply op b = ((k.operate op (a.widen k ha) (b.widen k hb)).map (mk k)).mapError
      fun obstacle => .arithmetic ⟨op, a, b, obstacle⟩ := by
  subst hk
  have hoperate : obstacleOrNumber op a b = Kind.operate op _ (a.widen _ ha) (b.widen _ hb) := by
    simp only [obstacleOrNumber, isZero_widen, hzero, Bool.false_eq_true, if_false]
  cases hx : Kind.operate op (a.kind.join b.kind) (a.widen _ ha) (b.widen _ hb) with
  | ok x => exact apply_of_ok hsignals (hoperate.trans hx)
  | error obstacle => exact apply_of_error hsignals (hoperate.trans hx)

/-- An operation that does not divide at all, which needs no hypothesis on the second operand. -/
theorem apply_eq {op : Operation} (hop : op.divides = false) {a b : Value} {k : Kind}
    (hk : a.kind.join b.kind = k) (ha : a.kind ≤ k) (hb : b.kind ≤ k) :
    a.apply op b = ((k.operate op (a.widen k ha) (b.widen k hb)).map (mk k)).mapError
      fun obstacle => .arithmetic ⟨op, a, b, obstacle⟩ :=
  apply_eq_operate (by rw [hop, Bool.false_and]) (by rw [hop, Bool.false_and]) hk ha hb

theorem quantity_widen_bigdecimal (v : Value) :
    Decimal.quantity (v.widen .bigdecimal v.kind.le_bigdecimal) = v.quantity :=
  quantity_widen v.kind.le_bigdecimal (fitsIn_of_aboveFloat (.inr rfl))

/-- The same of values, which are promoted without loss. One of them is a decimal, so the other is
promoted to one and the operation is done in the exact context. -/
theorem apply_bigdecimal {op : Operation} {x y r : ℚ} (hr : op.ExactRational x y r) {a b : Value}
    (hk : a.kind = .bigdecimal ∨ b.kind = .bigdecimal) (ha : a.quantity = .rational x)
    (hb : b.quantity = .rational y) :
    (Decimal.exactContext.Holds r ∧ ∃ d : Decimal, a.apply op b = .ok ⟨.bigdecimal, d⟩
        ∧ Decimal.Outcome.IsExact ⟨d, []⟩ Decimal.exactContext r)
      ∨ (¬Decimal.exactContext.Holds r ∧ ∃ trapped,
        a.apply op b = .error (.arithmetic ⟨op, a, b, .trapped trapped⟩)
          ∧ .inexact ∈ trapped.first :: trapped.others) := by
  have happly := apply_eq hr.divides (Kind.join_bigdecimal hk) a.kind.le_bigdecimal b.kind.le_bigdecimal
  rcases Decimal.operate_cases hr (a.quantity_widen_bigdecimal.trans ha)
    (b.quantity_widen_bigdecimal.trans hb) with ⟨h, d, hoperate, hexact⟩ | ⟨h, trapped, hoperate, hinexact⟩
  · rw [hoperate] at happly
    exact .inl ⟨h, d, happly, hexact⟩
  · rw [hoperate] at happly
    exact .inr ⟨h, trapped, happly, hinexact⟩

/-- **Decimal sums, differences and products are exact or fail.** Let two finite values be given, one of
them at least a decimal, and let `r` be the exact sum, difference or product of their quantities. The
operation has a result if and only if `r` is zero or can be written with ten thousand digits at most, the
last of which is not below the smallest exponent and the first of which is not above the largest one. Then
the result is exactly `r`, and its coefficient has no more than ten thousand digits. Otherwise there is an
arithmetic error, and inexactness is among its reasons. -/
theorem decimal_arithmetic_exact {op : Operation} {a b : Value} {x y r : ℚ}
    (hk : a.kind = .bigdecimal ∨ b.kind = .bigdecimal) (ha : a.quantity = .rational x)
    (hb : b.quantity = .rational y) (hr : op.ExactRational x y r) :
    ((∃ v, a.apply op b = .ok v) ↔
        r = 0 ∨ ∃ c q : Int, r = c * 10 ^ q ∧ |c| < 10 ^ 10000 ∧ Decimal.minExponent - 9999 ≤ q
          ∧ Int.log 10 |r| ≤ Decimal.maxExponent)
      ∧ (∀ v, a.apply op b = .ok v → v.quantity = .rational r
          ∧ ∃ negative c e, v = ⟨.bigdecimal, .finite negative c e⟩ ∧ digitCount c ≤ 10000)
      ∧ ((¬∃ v, a.apply op b = .ok v) → ∃ trapped,
          a.apply op b = .error (.arithmetic ⟨op, a, b, .trapped trapped⟩)
            ∧ .inexact ∈ trapped.first :: trapped.others) := by
  have hholds : Decimal.exactContext.Holds r ↔ r = 0 ∨ ∃ c q : Int, r = c * 10 ^ q
      ∧ |c| < 10 ^ 10000 ∧ Decimal.minExponent - 9999 ≤ q ∧ Int.log 10 |r| ≤ Decimal.maxExponent :=
    Iff.rfl
  rw [← hholds]
  rcases apply_bigdecimal hr hk ha hb with ⟨h, d, happly, hexact⟩ | ⟨h, trapped, happly, hinexact⟩
  · rw [happly]
    refine ⟨⟨fun _ => h, fun _ => ⟨_, rfl⟩⟩, ?_, fun hnone => absurd ⟨_, rfl⟩ hnone⟩
    rintro v hv
    obtain rfl := Except.ok.inj hv
    obtain ⟨negative, c, e, hd, hdigits⟩ := hexact.digits
    exact ⟨hexact.quantity, negative, c, e, congrArg _ hd, hdigits⟩
  · rw [happly]
    refine ⟨⟨fun ⟨v, hv⟩ => ?_, fun hr => absurd hr h⟩, fun v hv => ?_, fun _ => ⟨trapped, rfl, hinexact⟩⟩
    · cases hv
    · cases hv

/-- The exponents of two operands can be as far apart as exponents go. Their sum is not written
out to find that it cannot be held. -/
theorem decimal_arithmetic_exact_far_apart :
    quantity ⟨.bigdecimal, .finite false 1 Decimal.maxExponent⟩ = .rational (10 ^ Decimal.maxExponent)
      ∧ (ofInt .int8 1 (by decide)).quantity = .rational 1
      ∧ ∃ trapped, apply .add ⟨.bigdecimal, .finite false 1 Decimal.maxExponent⟩ (ofInt .int8 1 (by decide))
          = .error (.arithmetic ⟨.add, ⟨.bigdecimal, .finite false 1 Decimal.maxExponent⟩,
            ofInt .int8 1 (by decide), .trapped trapped⟩)
        ∧ .inexact ∈ trapped.first :: trapped.others := by
  have hlarge : quantity ⟨.bigdecimal, .finite false 1 Decimal.maxExponent⟩
      = .rational (10 ^ Decimal.maxExponent) :=
    congrArg Quantity.rational ((congrArg (· * _) Int.cast_one).trans (one_mul _))
  have hone : (ofInt .int8 1 (by decide)).quantity = .rational 1 := congrArg _ Int.cast_one
  have hbelow : ¬Decimal.exactContext.Holds (10 ^ Decimal.maxExponent + 1) := by
    simpa using Decimal.Context.not_holds_of_below (f := 0) false false one_ne_zero one_ne_zero
      (by decide : 0 + (digitCount 1 : Int) ≤ Decimal.maxExponent - Decimal.exactContext.precision - 1)
  have hexact := decimal_arithmetic_exact (.inl rfl) hlarge hone (.add _ _)
  exact ⟨hlarge, hone, hexact.2.2 fun hok => hbelow (hexact.1.mp hok)⟩

end Value

end StackMachine
