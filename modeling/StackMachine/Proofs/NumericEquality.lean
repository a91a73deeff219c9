import Mathlib
import StackMachine.Proofs.LosslessPromotion
import StackMachine.Proofs.Signals

/-!
# Equality of values is equality of quantities

Two values are compared in the higher of their kinds. Promotion keeps their quantities, so they are
equal if and only if these are the same, with one exception: an `int32` is rounded when it is compared
with a `float`. Where the two kinds do not meet, equality is an equivalence relation. There is no
answer at all if one of the values signals; such a value stands for no quantity.

* **`Value.numEq_iff`**: equality within all other pairs of kinds.
* **`Value.numEq_rounded_iff`**: the exception, in both orders.
* **`Value.equals_of_quantity`**: whatever stands for a quantity can be compared.
* **`Value.equality_numeric`**: the headline.
-/

namespace StackMachine

namespace Kind

/-- One of the kinds is `int32` and the other one is `float`. -/
def Clash (j k : Kind) : Prop :=
  (j = .integer .int32 ∧ k = .floating .float) ∨ (j = .floating .float ∧ k = .integer .int32)

theorem Clash.symm {j k : Kind} (h : j.Clash k) : k.Clash j :=
  h.elim (fun ⟨hj, hk⟩ => .inr ⟨hk, hj⟩) fun ⟨hj, hk⟩ => .inl ⟨hk, hj⟩

theorem not_clash_self (k : Kind) : ¬k.Clash k := by
  rintro (⟨h, h'⟩ | ⟨h, h'⟩)
  · cases h.symm.trans h'
  · cases h.symm.trans h'

/-- The kind in which two values are compared is that of one of them, so one of them is not
promoted. -/
theorem join_eq_or (j k : Kind) : j.join k = j ∨ j.join k = k := by
  unfold join
  split
  · exact .inl rfl
  · exact .inr rfl

/-- Integers are compared, and computed with, as integers. -/
theorem exists_join_integer (i j : IntKind) : ∃ k, (integer i).join (integer j) = integer k := by
  rcases join_eq_or (integer i) (integer j) with h | h
  · exact ⟨i, h⟩
  · exact ⟨j, h⟩

/-- Only clashing kinds have a higher one that rounds. The join is one of the two kinds, and
nothing is rounded by staying in its own. -/
theorem not_rounds_join {j k : Kind} (h : ¬j.Clash k) :
    ¬j.Rounds (j.join k) ∧ ¬k.Rounds (j.join k) := by
  have hjoin := join_eq_or j k
  constructor
  · rintro ⟨rfl, hk⟩
    rcases hjoin with hj | hj <;> rw [hj] at hk
    · cases hk
    · exact h (.inl ⟨rfl, hk⟩)
  · rintro ⟨rfl, hj⟩
    rcases hjoin with hk | hk <;> rw [hk] at hj
    · exact h (.inr ⟨hj, rfl⟩)
    · cases hj

end Kind

theorem Binary.quantity_ne_nan {fmt : Format} {x : Binary fmt} (h : x.isFinite = true) :
    x.quantity ≠ .nan := by
  cases x with
  | nan => cases h
  | infinity negative => cases h
  | finite negative units hunits => simp [quantity]

namespace Value

/-- What is compared are the quantities of the promoted values. This holds for all kinds, also for
those whose promotion rounds. -/
theorem numEq_iff_join (a b : Value) :
    a.numEq b = true ↔
      (a.kind.join b.kind).quantity (a.widen _ (kind_le_join_left a b)) ≠ .nan
        ∧ (a.kind.join b.kind).quantity (a.widen _ (kind_le_join_left a b))
          = (a.kind.join b.kind).quantity (b.widen _ (kind_le_join_right a b)) :=
  Kind.numEq_iff _ _ _

/-- **Equality is equality of quantities** where nothing is rounded. The promoted values stand for
what the values stood for. -/
theorem numEq_iff {a b : Value} (h : ¬a.kind.Clash b.kind) :
    a.numEq b = true ↔ a.quantity ≠ .nan ∧ a.quantity = b.quantity := by
  obtain ⟨ha, hb⟩ := Kind.not_rounds_join h
  rw [numEq_iff_join, quantity_widen _ (fitsIn_of_not_rounds ha),
    quantity_widen _ (fitsIn_of_not_rounds hb)]

/-- **An `int32` is rounded before it is compared with a `float`**, on whichever side it stands.
So there are integers that equal a `float` which stands for another number. -/
theorem numEq_rounded_iff (n : (Kind.integer .int32).Number) (x : Binary FloatKind.float.format) :
    (numEq ⟨.integer .int32, n⟩ ⟨.floating .float, x⟩ = true
        ↔ (Binary.ofInt FloatKind.float.format n.val).quantity = x.quantity)
      ∧ (numEq ⟨.floating .float, x⟩ ⟨.integer .int32, n⟩ = true
        ↔ (Binary.ofInt FloatKind.float.format n.val).quantity = x.quantity) := by
  have hfinite := Binary.quantity_ne_nan (n.property.isFinite_ofInt .float)
  constructor
  · show (Binary.ofInt FloatKind.float.format n.val).numEq x = true ↔ _
    rw [Binary.numEq_iff]
    exact ⟨And.right, fun h => ⟨hfinite, h⟩⟩
  · show x.numEq (Binary.ofInt FloatKind.float.format n.val) = true ↔ _
    rw [Binary.numEq_iff]
    exact ⟨fun h => h.2.symm, fun h => ⟨h ▸ hfinite, h.symm⟩⟩

/-- Clashing kinds, one case for each side on which the integer stands. Proofs about all values
split here and use `numEq_iff` or `numEq_rounded_iff`. -/
theorem exists_of_clash {a b : Value} (h : a.kind.Clash b.kind) :
    ∃ n x, (a = ⟨.integer .int32, n⟩ ∧ b = ⟨.floating .float, x⟩)
      ∨ (a = ⟨.floating .float, x⟩ ∧ b = ⟨.integer .int32, n⟩) := by
  obtain ⟨j, y⟩ := a
  obtain ⟨k, z⟩ := b
  rcases h with ⟨rfl, rfl⟩ | ⟨rfl, rfl⟩
  · exact ⟨y, z, .inl ⟨rfl, rfl⟩⟩
  · exact ⟨z, y, .inr ⟨rfl, rfl⟩⟩

/-- **Equality is symmetric**, for clashing kinds as well, since the integer is rounded on either
side. -/
theorem numEq_comm (a b : Value) : a.numEq b = b.numEq a := by
  rw [Bool.eq_iff_iff]
  by_cases h : a.kind.Clash b.kind
  · obtain ⟨n, x, ⟨rfl, rfl⟩ | ⟨rfl, rfl⟩⟩ := exists_of_clash h
    · exact (numEq_rounded_iff n x).1.trans (numEq_rounded_iff n x).2.symm
    · exact (numEq_rounded_iff n x).2.trans (numEq_rounded_iff n x).1.symm
  · rw [numEq_iff h, numEq_iff fun hclash => h hclash.symm]
    exact ⟨fun ⟨hnan, heq⟩ => ⟨heq ▸ hnan, heq.symm⟩, fun ⟨hnan, heq⟩ => ⟨heq ▸ hnan, heq.symm⟩⟩

/-- **Nothing equals `nan`**, not even itself. By symmetry the same holds of the second operand.
-/
theorem quantity_ne_nan_of_numEq {a b : Value} (h : a.numEq b = true) : a.quantity ≠ .nan := by
  by_cases hclash : a.kind.Clash b.kind
  · obtain ⟨n, x, ⟨rfl, rfl⟩ | ⟨rfl, rfl⟩⟩ := exists_of_clash hclash
    · simp [quantity, Kind.quantity]
    · have hfinite := Binary.quantity_ne_nan (n.property.isFinite_ofInt .float)
      rwa [(numEq_rounded_iff n x).2.mp h] at hfinite
  · exact ((numEq_iff hclash).mp h).1

/-- **Where the kinds do not clash, equality is an equivalence relation** on all that stands for
something. With clashing kinds it is not transitive, because two integers can be rounded to one
`float`. -/
theorem equivalence_numEq {S : Set Value} (h : ∀ u ∈ S, ∀ v ∈ S, ¬u.kind.Clash v.kind) :
    Equivalence fun u v : {u // u ∈ S ∧ u.quantity ≠ .nan} => u.val.numEq v.val = true := by
  have hiff (u v : {u // u ∈ S ∧ u.quantity ≠ .nan}) :
      u.val.numEq v.val = true ↔ u.val.quantity = v.val.quantity := by
    rw [numEq_iff (h _ u.property.1 _ v.property.1)]
    exact and_iff_right u.property.2
  constructor
  · exact fun u => (hiff u u).mpr rfl
  · exact fun {u v} huv => (hiff v u).mpr ((hiff u v).mp huv).symm
  · exact fun {u v w} huv hvw => (hiff u w).mpr (((hiff u v).mp huv).trans ((hiff v w).mp hvw))

/-! ## Answers -/

/-- What decides whether two numbers are equal is the answer, if they do not signal. It turns the
lemmas about `numEq` into ones about `equals`. -/
theorem equals_of_iff {a b : Value} {P : Prop} [Decidable P] (ha : a.signals = false)
    (hb : b.signals = false) (h : a.numEq b = true ↔ P) : a.equals b = .ok (decide P) := by
  rw [equals_of_quiet ha hb, Except.ok.injEq, Bool.eq_iff_iff, decide_eq_true_iff]
  exact h

/-- What stands for something does not signal, so the question has an answer. -/
theorem equals_of_quantity {a b : Value} (ha : a.quantity ≠ .nan) (hb : b.quantity ≠ .nan) :
    a.equals b = .ok (a.numEq b) :=
  equals_of_quiet (signals_of_quantity ha) (signals_of_quantity hb)

/-- There is no answer if and only if one of the two signals. The kind of the other is of no
account. -/
theorem equals_eq_error_iff (a b : Value) :
    a.equals b = .error .signal ↔ a.signals = true ∨ b.signals = true := by
  rw [equals_eq, ← Bool.or_eq_true]
  cases a.signals || b.signals <;> simp [Decimal.unlessSignal]

/-- The answer does not depend on the order, and neither does whether there is one. -/
theorem equals_comm (a b : Value) : a.equals b = b.equals a := by
  rw [equals_eq, equals_eq, numEq_comm, Bool.or_comm]

/-- The answer is yes exactly for the same quantity, where nothing is rounded. What signals stands
for nothing, so it needs no hypothesis of its own. -/
theorem equals_eq_true_iff {a b : Value} (h : ¬a.kind.Clash b.kind) :
    a.equals b = .ok true ↔ a.quantity ≠ .nan ∧ a.quantity = b.quantity := by
  rw [← numEq_iff h]
  cases hs : a.signals || b.signals with
  | false =>
    rw [Bool.or_eq_false_iff] at hs
    rw [equals_of_quiet hs.1 hs.2, Except.ok.injEq]
  | true =>
    have herror := (equals_eq_error_iff a b).mpr ((Bool.or_eq_true _ _).mp hs)
    have hne : a.numEq b ≠ true := by
      intro heq
      rcases (Bool.or_eq_true _ _).mp hs with ha | hb
      · exact quantity_ne_nan_of_numEq heq (quantity_of_signals ha)
      · rw [numEq_comm] at heq
        exact quantity_ne_nan_of_numEq heq (quantity_of_signals hb)
    simp [herror, hne]

/-! ## The headline -/

/-- **Equality of values is numeric equality, with one exception.** Two values that are not `nan` are
equal if and only if they stand for the same quantity, unless one of them is an `int32` and the other
one is a `float`. Then they are equal if and only if the float nearest to the integer stands for the same
quantity as the float. Nothing equals a `nan`. If one of the two is a `nan` that signals there is no
answer, in either order, and this is the only way in which there is none.

So equality is symmetric, and on a set of values in which `int32` and `float` do not meet it is an
equivalence relation, `nan` left aside. -/
theorem equality_numeric (a b : Value) :
    (a.quantity ≠ .nan → b.quantity ≠ .nan → ¬a.kind.Clash b.kind →
        a.equals b = .ok (decide (a.quantity = b.quantity)))
      ∧ (∀ n x, a = ⟨.integer .int32, n⟩ → b = ⟨.floating .float, x⟩ →
          (∃ y : Binary FloatKind.float.format, y.IsNearest n.val)
            ∧ ∀ y : Binary FloatKind.float.format, y.IsNearest n.val →
              a.equals b = .ok (decide (y.quantity = Binary.quantity x))
                ∧ b.equals a = .ok (decide (y.quantity = Binary.quantity x)))
      ∧ (a.quantity = .nan ∨ b.quantity = .nan →
          a.equals b = if a.signals || b.signals then .error .signal else .ok false)
      ∧ a.equals b = b.equals a
      ∧ ∀ S : Set Value,
          ¬((∃ u ∈ S, u.kind = .integer .int32) ∧ ∃ u ∈ S, u.kind = .floating .float) →
          Equivalence fun u v : {u // u ∈ S ∧ u.quantity ≠ .nan} => u.val.equals v.val = .ok true := by
  refine ⟨fun ha hb hclash => ?_, ?_, fun hnan => ?_, equals_comm a b, fun S hS => ?_⟩
  · exact equals_of_iff (signals_of_quantity ha) (signals_of_quantity hb)
      ((numEq_iff hclash).trans (and_iff_right ha))
  · rintro n x rfl rfl
    have hnearest : (Binary.ofInt FloatKind.float.format n.val).IsNearest n.val :=
      Binary.isNearest_ofInt (FloatKind.two_le_precision _) (n.property.isFinite_ofInt .float)
    refine ⟨⟨_, hnearest⟩, fun y hy => ?_⟩
    -- any nearest float will do, since they all stand for the same
    rw [hy.unique (FloatKind.precision_pos _) hnearest]
    obtain ⟨hleft, hright⟩ := numEq_rounded_iff n x
    exact ⟨equals_of_iff rfl rfl hleft, equals_of_iff rfl rfl hright⟩
  · have hfalse : a.numEq b = false := by
      rw [Bool.eq_false_iff]
      intro h
      rcases hnan with ha | hb
      · exact quantity_ne_nan_of_numEq h ha
      · rw [numEq_comm] at h
        exact quantity_ne_nan_of_numEq h hb
    rw [equals_eq, hfalse]
    rfl
  · -- without both kinds in the set no two of its values clash
    have hclash : ∀ u ∈ S, ∀ v ∈ S, ¬u.kind.Clash v.kind := by
      rintro u hu v hv (⟨hint, hfloat⟩ | ⟨hfloat, hint⟩)
      · exact hS ⟨⟨u, hu, hint⟩, ⟨v, hv, hfloat⟩⟩
      · exact hS ⟨⟨v, hv, hint⟩, ⟨u, hu, hfloat⟩⟩
    have hequals (u v : {u // u ∈ S ∧ u.quantity ≠ .nan}) :
        u.val.equals v.val = .ok true ↔ u.val.numEq v.val = true := by
      rw [equals_of_quantity u.property.2 v.property.2, Except.ok.injEq]
    simpa only [hequals] using equivalence_numEq hclash

/-- A `nan` that signals is not unequal to a number: the question has no answer, and the machine
stops on it. -/
theorem equality_numeric_signalling :
    Value.quantity ⟨.bigdecimal, .nan ⟨false, true, 0⟩⟩ = .nan
      ∧ Value.equals ⟨.bigdecimal, .nan ⟨false, true, 0⟩⟩ ⟨.integer .int8, ⟨1, by decide⟩⟩
          ≠ .ok false := by
  refine ⟨rfl, ?_⟩
  rw [(equals_eq_error_iff _ _).mpr (.inl rfl)]
  nofun

end Value

end StackMachine
