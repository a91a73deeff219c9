import Mathlib
import StackMachine.Proofs.ExactDecimals
import StackMachine.Proofs.NumericEquality

/-!
# Sums and products do not depend on the order of the operands

The operands of a sum or a product are promoted to the same kind whichever of them comes first, and each
kind computes with them in a symmetric way. That is plain for integers and for floats. A sum of decimals
puts the operand with the larger exponent first, so only operands with equal exponents are left to be
exchanged, and between these nothing is too far below to be replaced. The one exception are two decimals
that are no numbers: the first of them is handed on, and the sign and the digits that it has may be
others than those of the second.

* **`Binary.add_comm`**, **`Binary.mul_comm`**: floats.
* **`Decimal.Context.addOrdered_comm`**, **`Decimal.Context.add_comm`**, **`Decimal.Context.mul_comm`**:
  decimals in a context, with the conditions that arise.
* **`Decimal.nanText_inj`**: what is handed on can be told by its text.
* **`Kind.operate_comm`**, **`Kind.operate_of_unlike`**: numbers of one kind, and the exception.
* **`Value.sums_and_products_commute`**: the headline.
-/

namespace StackMachine

/-- The operations whose operands can be exchanged. -/
def Operation.Commutes (op : Operation) : Prop :=
  op = .add ∨ op = .mul

/-- Neither of them divides, so the divisor is not compared with zero. -/
theorem Operation.Commutes.divides {op : Operation} (h : op.Commutes) : op.divides = false := by
  rcases h with rfl | rfl <;> rfl

/-! ## Floats -/

namespace Binary

variable {fmt : Format}

/-- Sums of binary numbers, one case for each pair of forms. The sum of two finite ones is rounded
from an exact sum, which is symmetric, and so is the sign that two zeros give it. -/
protected theorem add_comm (x y : Binary fmt) : x.add y = y.add x := by
  cases x with
  | nan => cases y <;> rfl
  | infinity s =>
    cases y with
    | nan => rfl
    | infinity t =>
      by_cases h : s = t
      · rw [h]
      · rw [add, add, if_neg h, if_neg (Ne.symm h)]
    | finite t v hv => rfl
  | finite s u hu =>
    cases y with
    | nan => rfl
    | infinity t => rfl
    | finite t v hv => simp only [add, Int.add_comm (signed s u), Bool.and_comm s]

/-- Products of binary numbers, with the sign that both operands give and one case for each pair
of forms. -/
protected theorem mul_comm (x y : Binary fmt) : x.mul y = y.mul x := by
  cases x with
  | nan => cases y <;> rfl
  | infinity s =>
    cases y with
    | nan => rfl
    | infinity t => rw [mul, mul, Bool.xor_comm]
    | finite t v hv => rw [mul, mul, Bool.xor_comm]
  | finite s u hu =>
    cases y with
    | nan => rfl
    | infinity t => rw [mul, mul, Bool.xor_comm]
    | finite t v hv => rw [mul, mul, Bool.xor_comm, Nat.mul_comm]

end Binary

/-! ## Decimals -/

namespace Decimal.Context

variable {ctx : Context}

/-- An operand with the same exponent always takes part as it is. The shift that keeps a far
smaller operand from being written out is for different exponents only. -/
theorem reaching_self (ctx : Context) (c d : Nat) (e : Int) : ctx.reaching c e d e = (d, e) := by
  have hnear : ¬(c ≠ 0 ∧ e + digitCount d < e - ctx.precision - 2) := by omega
  rw [reaching, if_neg hnear]

/-- At equal exponents the coefficients are added as they are. The order of the operands is of no
account in what is on the right. -/
theorem addOrdered_self (ctx : Context) (s t : Bool) (c d : Nat) (e : Int) :
    ctx.addOrdered s c e t d e
      = ctx.round (if signed s c + signed t d = 0 then s && t else signed s c + signed t d < 0)
          (signed s c + signed t d).natAbs 1 e := by
  have hshift : (if c = 0 then 0 else c * Nat.pow 10 (e - e).toNat) = c := by
    rw [Int.sub_self]
    split
    · next h => exact h.symm
    · exact Nat.mul_one c
  simp only [addOrdered, reaching_self, hshift]

/-- Ordering by exponent does not decide between operands with the same one, so these have to be
exchanged here. -/
theorem addOrdered_comm (ctx : Context) (s t : Bool) (c d : Nat) (e : Int) :
    ctx.addOrdered s c e t d e = ctx.addOrdered t d e s c e := by
  rw [addOrdered_self, addOrdered_self, Int.add_comm, Bool.and_comm]

/-- **Sums in a context**, with the conditions that arise. At least one operand is a number; of
two that are not, one is handed on, and the order decides which. -/
protected theorem add_comm {x y : Decimal} (h : ∀ m n, x = .nan m → y ≠ .nan n) :
    ctx.add x y = ctx.add y x := by
  cases x with
  | nan m =>
    cases y with
    | nan n => exact absurd rfl (h m n rfl)
    | infinity t => rfl
    | finite t d f => rfl
  | infinity s =>
    cases y with
    | nan n => rfl
    | infinity t =>
      by_cases h : s = t
      · rw [h]
      · rw [add, add, if_neg h, if_neg (Ne.symm h)]
    | finite t d f => rfl
  | finite s c e =>
    cases y with
    | nan n => rfl
    | infinity t => rfl
    | finite t d f =>
      show (if f ≤ e then ctx.addOrdered s c e t d f else ctx.addOrdered t d f s c e)
        = if e ≤ f then ctx.addOrdered t d f s c e else ctx.addOrdered s c e t d f
      -- different exponents put the operands in the same order; equal ones leave them as they come
      rcases Int.lt_trichotomy e f with hlt | rfl | hgt
      · rw [if_neg (by omega), if_pos (by omega)]
      · rw [if_pos (Int.le_refl e), if_pos (Int.le_refl e), addOrdered_comm]
      · rw [if_pos (by omega), if_neg (by omega)]

/-- **Products in a context**, with the conditions that arise and under the same hypothesis. -/
protected theorem mul_comm {x y : Decimal} (h : ∀ m n, x = .nan m → y ≠ .nan n) :
    ctx.mul x y = ctx.mul y x := by
  cases x with
  | nan m =>
    cases y with
    | nan n => exact absurd rfl (h m n rfl)
    | infinity t => rfl
    | finite t d f => rfl
  | infinity s =>
    cases y with
    | nan n => rfl
    | infinity t => rw [mul, mul, Bool.xor_comm]
    | finite t d f => rw [mul, mul, Bool.xor_comm]
  | finite s c e =>
    cases y with
    | nan n => rfl
    | infinity t => rw [mul, mul, Bool.xor_comm]
    | finite t d f => rw [mul, mul, Bool.xor_comm, Nat.mul_comm, Int.add_comm]

end Decimal.Context

/-! ## Decimals that are no numbers -/

namespace Decimal

/-- What is left of a decimal that is no number when it is handed on: its sign and its last digits. -/
def kept (n : NaN) : Bool × Nat :=
  (n.negative, n.payload % Nat.pow 10 exactContext.precision)

/-- Something that signals is handed on if there is any, in either order. -/
theorem signalling_handedOn (m n : NaN) :
    (Context.handedOn m (.nan n)).signalling = (m.signalling || n.signalling) := by
  cases hm : m.signalling <;> cases hn : n.signalling <;> simp [Context.handedOn, hm, hn]

/-- If the second does not signal, the first is handed on: it signals, or it comes first. -/
theorem handedOn_of_quiet (m : NaN) {n : NaN} (hn : n.signalling = false) :
    Context.handedOn m (.nan n) = m := by
  simp [Context.handedOn, hn]

/-- The decimal that it is handed on as. -/
def passedOn (n : NaN) : Decimal :=
  .nan ⟨(kept n).1, false, (kept n).2⟩

/-- What signals is not handed on, since the exact context traps it. What does not is cut to the
digits that the context has for it. -/
theorem trap_quiet (n : NaN) :
    exactContext.trap (exactContext.quiet n)
      = if n.signalling then .error .signal else .ok (passedOn n) := by
  cases hn : n.signalling with
  | true => simp only [Context.trap, Context.quiet, hn]; rfl
  | false => simp only [Context.trap, Context.quiet, hn]; rfl

/-- A sign in front of a text that starts with a letter can be read off it. -/
theorem signText_append_inj {s t : Bool} {c : Char} {cs ds : List Char} (hc : c ≠ '-')
    (h : signText s ++ c :: cs = signText t ++ c :: ds) : s = t ∧ cs = ds := by
  cases s with
  | false =>
    cases t with
    | false => exact ⟨rfl, (List.cons.inj h).2⟩
    | true => exact absurd (List.cons.inj h).1 hc
  | true =>
    cases t with
    | false => exact absurd (List.cons.inj h).1.symm hc
    | true => exact ⟨rfl, (List.cons.inj (List.cons.inj h).2).2⟩

/-- The digits of what is no number; zero has none. Different payloads are written with different
digits. -/
theorem payloadText_inj {p q : Nat}
    (h : (if p = 0 then [] else Nat.toDigits 10 p) = if q = 0 then [] else Nat.toDigits 10 q) :
    p = q := by
  by_cases hp : p = 0
  · by_cases hq : q = 0
    · rw [hp, hq]
    · rw [if_pos hp, if_neg hq] at h
      exact absurd h.symm Nat.toDigits_ne_nil
  · by_cases hq : q = 0
    · rw [if_neg hp, if_pos hq] at h
      exact absurd h Nat.toDigits_ne_nil
    · rw [if_neg hp, if_neg hq] at h
      rw [← Nat.ofDigitChars_ten_toDigits (n := p), h, Nat.ofDigitChars_ten_toDigits]

/-- **What is handed on can be told by its text.** A different sign or payload is written
differently, so an exchange that changes one of them shows. -/
theorem nanText_inj {m n : NaN} (h : (passedOn m).text = (passedOn n).text) : kept m = kept n := by
  simp only [passedOn, text, nanText, List.append_assoc, Bool.false_eq_true, if_false] at h
  obtain ⟨hsign, hrest⟩ := signText_append_inj (by decide) h
  exact Prod.ext hsign (payloadText_inj (List.cons.inj (List.cons.inj hrest).2).2)

end Decimal

/-! ## Numbers of one kind -/

theorem Operation.Commutes.onInt_comm {op : Operation} (h : op.Commutes) (m n : Int) :
    op.onInt m n = op.onInt n m := by
  rcases h with rfl | rfl
  · exact Int.add_comm m n
  · exact Int.mul_comm m n

/-- Both numbers are decimals that are no numbers and do not signal, and they are not handed on alike. -/
def Kind.Unlike : (k : Kind) → k.Number → k.Number → Prop
  | .bigdecimal, .nan m, .nan n =>
    m.signalling = false ∧ n.signalling = false ∧ Decimal.kept m ≠ Decimal.kept n
  | _, _, _ => False

/-- An operation on two decimals that are no numbers hands one of them on. Sum and product do not
differ here, so both are proved at once. -/
theorem Operation.Commutes.operate_nan {op : Operation} (h : op.Commutes) (m n : NaN) :
    Kind.operate op .bigdecimal (.nan m) (.nan n)
      = (Decimal.exactContext.trap
          (Decimal.exactContext.quiet (Decimal.Context.handedOn m (.nan n)))).mapError .trapped := by
  rcases h with rfl | rfl <;> rfl

/-- **Two numbers of one kind can be exchanged**, and so can those that have no result. The case
that is excluded is that of two decimals that are no numbers and are handed on differently. -/
theorem Kind.operate_comm {op : Operation} (h : op.Commutes) {k : Kind} {x y : k.Number}
    (hlike : ¬k.Unlike x y) : k.operate op x y = k.operate op y x := by
  cases k with
  | integer k => simp only [operate, h.onInt_comm x.val]
  | floating k =>
    rcases h with rfl | rfl
    · exact congrArg Except.ok (Binary.add_comm x y)
    · exact congrArg Except.ok (Binary.mul_comm x y)
  | bigdecimal =>
    by_cases hnan : ∃ m n, x = .nan m ∧ y = .nan n
    · obtain ⟨m, n, rfl, rfl⟩ := hnan
      rw [h.operate_nan, h.operate_nan, Decimal.trap_quiet, Decimal.trap_quiet,
        Decimal.signalling_handedOn, Decimal.signalling_handedOn, Bool.or_comm n.signalling]
      cases hs : m.signalling || n.signalling with
      | true => rfl
      | false =>
        -- without a signal the two are handed on alike
        obtain ⟨hm, hn⟩ := Bool.or_eq_false_iff.mp hs
        have hkept : Decimal.kept m = Decimal.kept n := by
          by_contra hne
          exact hlike ⟨hm, hn, hne⟩
        rw [Decimal.handedOn_of_quiet m hn, Decimal.handedOn_of_quiet n hm, Decimal.passedOn, hkept]
        rfl
    · -- the same outcome is trapped in the same way
      have hnumber : ∀ m n, x = .nan m → y ≠ .nan n := fun m n hx hy => hnan ⟨m, n, hx, hy⟩
      have htrap {o o' : Decimal.Outcome} (ho : o = o') :
          (Decimal.exactContext.trap o).mapError Value.Obstacle.trapped
            = (Decimal.exactContext.trap o').mapError .trapped := by
        rw [ho]
      rcases h with rfl | rfl
      · exact htrap (Decimal.Context.add_comm hnumber)
      · exact htrap (Decimal.Context.mul_comm hnumber)

/-- **Of two that are not handed on alike, the first is**, and the texts show which one it was. So
the hypothesis of `Kind.operate_comm` cannot be spared. -/
theorem Kind.operate_of_unlike {op : Operation} (h : op.Commutes) {k : Kind} {x y : k.Number}
    (hunlike : k.Unlike x y) : ∃ v w, k.operate op x y = .ok v ∧ k.operate op y x = .ok w
      ∧ k.numberText v ≠ k.numberText w := by
  cases k with
  | integer k => exact hunlike.elim
  | floating k => exact hunlike.elim
  | bigdecimal =>
    cases x with
    | infinity s => exact hunlike.elim
    | finite s c e => exact hunlike.elim
    | nan m =>
      cases y with
      | infinity t => exact hunlike.elim
      | finite t d f => exact hunlike.elim
      | nan n =>
        obtain ⟨hm, hn, hne⟩ := hunlike
        -- neither signals, so each order hands its first operand on
        refine ⟨Decimal.passedOn m, Decimal.passedOn n, ?_, ?_, fun h => hne (Decimal.nanText_inj h)⟩
        · rw [h.operate_nan, Decimal.handedOn_of_quiet m hn, Decimal.trap_quiet, hm]
          rfl
        · rw [h.operate_nan, Decimal.handedOn_of_quiet n hm, Decimal.trap_quiet, hn]
          rfl

/-! ## Values -/

namespace Value

/-- The values are computed with as decimals, both are no numbers and do not signal, and they differ in
their signs or in the digits that are handed on. -/
def UnlikeNaNs (a b : Value) : Prop :=
  (a.kind = .bigdecimal ∨ b.kind = .bigdecimal) ∧ ∃ m n : NaN,
    a.promote .bigdecimal = .ok ⟨.bigdecimal, .nan m⟩
      ∧ b.promote .bigdecimal = .ok ⟨.bigdecimal, .nan n⟩
      ∧ m.signalling = false ∧ n.signalling = false ∧ Decimal.kept m ≠ Decimal.kept n

/-- The exception told of the values before promotion. One of them has to be a decimal; the other
one may be the `nan` of a float, which is promoted to one without a payload. -/
theorem unlike_widen_iff {a b : Value} {k : Kind} (hk : a.kind.join b.kind = k) (ha : a.kind ≤ k)
    (hb : b.kind ≤ k) : k.Unlike (a.widen k ha) (b.widen k hb) ↔ a.UnlikeNaNs b := by
  have hdecimal : a.kind = .bigdecimal ∨ b.kind = .bigdecimal → k = .bigdecimal :=
    fun h => hk.symm.trans (Kind.join_bigdecimal h)
  cases k with
  | integer k => exact ⟨False.elim, fun h => by cases hdecimal h.1⟩
  | floating k => exact ⟨False.elim, fun h => by cases hdecimal h.1⟩
  | bigdecimal =>
    have hor : a.kind = .bigdecimal ∨ b.kind = .bigdecimal := by
      rcases Kind.join_eq_or a.kind b.kind with h | h
      · exact .inl (h.symm.trans hk)
      · exact .inr (h.symm.trans hk)
    rw [UnlikeNaNs, promote_eq ha, promote_eq hb]
    constructor
    · intro h
      refine ⟨hor, ?_⟩
      revert h
      generalize a.widen .bigdecimal ha = x
      generalize b.widen .bigdecimal hb = y
      intro h
      cases x with
      | infinity s => exact h.elim
      | finite s c e => exact h.elim
      | nan m =>
        cases y with
        | infinity t => exact h.elim
        | finite t d f => exact h.elim
        | nan n => exact ⟨m, n, rfl, rfl, h⟩
    · rintro ⟨-, m, n, hm, hn, h⟩
      have hx : a.widen .bigdecimal ha = .nan m := eq_of_heq (Value.mk.inj (Except.ok.inj hm)).2
      have hy : b.widen .bigdecimal hb = .nan n := eq_of_heq (Value.mk.inj (Except.ok.inj hn)).2
      rw [hx, hy]
      exact h

/-- **Sums and products do not depend on the order of the operands.** For any two values of any two kinds,
infinities and `nan` among them, both orders give an arithmetic error, with the same obstacle, or both
give a value of the same kind. The two values have the same text, so that a zero has the same sign and a
decimal has the same exponent and the same digits, unless the operands are two decimals that are no
numbers and differ in their signs or in the digits that are handed on. Then the texts differ. -/
theorem sums_and_products_commute {op : Operation} (hop : op = .add ∨ op = .mul) (a b : Value) :
    (∃ o, a.apply op b = .error (.arithmetic ⟨op, a, b, o⟩)
        ∧ b.apply op a = .error (.arithmetic ⟨op, b, a, o⟩))
      ∨ ∃ v w, a.apply op b = .ok v ∧ b.apply op a = .ok w ∧ v.kind = w.kind
        ∧ (v.text = w.text ↔ ¬a.UnlikeNaNs b) ∧ (v = w ↔ ¬a.UnlikeNaNs b) := by
  have hdivides : op.divides = false := Operation.Commutes.divides hop
  obtain ⟨k, hk⟩ : ∃ k, a.kind.join b.kind = k := ⟨_, rfl⟩
  have hk' : b.kind.join a.kind = k := (Kind.join_comm _ _).trans hk
  have ha : a.kind ≤ k := hk ▸ kind_le_join_left a b
  have hb : b.kind ≤ k := hk ▸ kind_le_join_right a b
  -- both orders promote to the same kind, so they differ in the order of the promoted numbers only
  rw [apply_eq hdivides hk ha hb, apply_eq hdivides hk' hb ha, ← unlike_widen_iff hk ha hb]
  -- the one exception decides whether the two results are the same number
  by_cases hunlike : k.Unlike (a.widen k ha) (b.widen k hb)
  · obtain ⟨v, w, hv, hw, hne⟩ := Kind.operate_of_unlike hop hunlike
    have htext : Value.text ⟨k, v⟩ ≠ Value.text ⟨k, w⟩ := fun h => hne (String.ofList_injective h)
    rw [hv, hw]
    exact .inr ⟨⟨k, v⟩, ⟨k, w⟩, rfl, rfl, rfl, iff_of_false htext (not_not_intro hunlike),
      iff_of_false (fun h => htext (congrArg _ h)) (not_not_intro hunlike)⟩
  · rw [Kind.operate_comm hop hunlike]
    cases k.operate op (b.widen k hb) (a.widen k ha) with
    | ok x => exact .inr ⟨⟨k, x⟩, ⟨k, x⟩, rfl, rfl, rfl, iff_of_true rfl hunlike, iff_of_true rfl hunlike⟩
    | error o => exact .inl ⟨o, rfl, rfl⟩

/-- A product of zero keeps the sign of one operand and the exponent of the other, in both orders.
-/
theorem sums_and_products_commute_signed_zero :
    apply .mul (ofInt .int8 (-3) (by decide)) ⟨.bigdecimal, .finite false 0 (-2)⟩
        = .ok ⟨.bigdecimal, .finite true 0 (-2)⟩
      ∧ apply .mul ⟨.bigdecimal, .finite false 0 (-2)⟩ (ofInt .int8 (-3) (by decide))
        = .ok ⟨.bigdecimal, .finite true 0 (-2)⟩ := by
  have hproduct : apply .mul (ofInt .int8 (-3) (by decide)) ⟨.bigdecimal, .finite false 0 (-2)⟩
      = .ok ⟨.bigdecimal, .finite true 0 (-2)⟩ := rfl
  have hlike : ¬UnlikeNaNs (ofInt .int8 (-3) (by decide)) ⟨.bigdecimal, .finite false 0 (-2)⟩ := by
    rintro ⟨-, m, n, -, hn, -⟩
    cases hn
  refine ⟨hproduct, ?_⟩
  rcases sums_and_products_commute (.inr rfl) (ofInt .int8 (-3) (by decide))
    ⟨.bigdecimal, .finite false 0 (-2)⟩ with ⟨o, ho, -⟩ | ⟨v, w, hv, hw, -, -, hvw⟩
  · cases hproduct.symm.trans ho
  · rw [hw, ← hvw.mpr hlike, ← hv, hproduct]

/-- The sum of two decimals that are no numbers is the first one, so the order can be seen in the
text of the sum. -/
theorem sums_and_products_commute_payloads :
    (apply .add ⟨.bigdecimal, .nan ⟨false, false, 1⟩⟩ ⟨.bigdecimal, .nan ⟨false, false, 2⟩⟩).toOption.map
        text = some "NaN1"
      ∧ (apply .add ⟨.bigdecimal, .nan ⟨false, false, 2⟩⟩
          ⟨.bigdecimal, .nan ⟨false, false, 1⟩⟩).toOption.map text = some "NaN2" := by
  decide +kernel

end Value

end StackMachine
