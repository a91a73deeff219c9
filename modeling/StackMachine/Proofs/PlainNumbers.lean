import Mathlib
import StackMachine.Proofs.BinaryRounding
import StackMachine.Value.Arithmetic
import StackMachine.Value.Conversion

/-!
# The plain number of a value

A value without its kind is a plain number, and the number together with a kind of no lower rank
gives a value again. Construction can fail, and it reaches a float only through a double; promotion
does neither. Here the two are shown to agree, so promotion is construction and never fails, and
nothing is rounded twice.

* **`Value.plain`**: the number of a value.
* **`Value.ofNumber_plain`**: promotion is construction from the plain number.
* **`Value.wellFormed`**: what a number of each kind is.
-/

namespace StackMachine

theorem IntKind.InRange.natAbs_le {k : IntKind} {n : Int} (h : k.InRange n) :
    n.natAbs ≤ 2147483648 := by
  cases k <;> simp only [IntKind.InRange, IntKind.least, IntKind.greatest, IntKind.bits,
    Nat.pow_eq] at h <;> omega

theorem IntKind.InRange.natAbs_lt {k : IntKind} {n : Int} (h : k.InRange n) :
    n.natAbs < 2 ^ Format.double.precision := by
  calc n.natAbs ≤ 2147483648 := h.natAbs_le
    _ < 2 ^ 53 := by decide

theorem Format.double_holdsIntegers : Format.double.HoldsIntegers := by
  unfold Format.HoldsIntegers
  decide

/-- Integers of all kinds are doubles, as thirty-two bits are fewer than a significand has. -/
theorem IntKind.InRange.representable {k : IntKind} {n : Int} (h : k.InRange n) :
    Format.double.Representable (n.natAbs * 2 ^ Format.double.scale) :=
  Format.representable_int Format.double_holdsIntegers h.natAbs_lt

namespace Value

/-- The number of a value, without its kind. Floats are numbers in the form of doubles. -/
def plain : Value → Number
  | ⟨.integer _, n⟩ => .integer n.val
  | ⟨.floating _, x⟩ => .floating (Binary.convert .double x)
  | ⟨.bigdecimal, d⟩ => .decimal d

/-! ## Promotion is construction -/

/-- An integer of any kind is a double, so its conversion does not overflow. -/
theorem toDouble_integer {k : IntKind} {n : Int} (h : k.InRange n) :
    toDouble (.integer n) = .ok (Binary.ofInt .double n) := by
  -- only that it is finite matters; its units are not to be computed
  obtain ⟨negative, units, hu, hexact⟩ :
      ∃ negative units hu, Binary.ofInt .double n = .finite negative units hu :=
    ⟨_, _, _, Binary.ofInt_eq h.representable⟩
  generalize ht : Number.integer n = t
  fun_cases toDouble t with
  | case1 m negative' hinf =>
    obtain rfl := Number.integer.inj ht
    rw [hexact] at hinf
    cases hinf
  | case2 m =>
    obtain rfl := Number.integer.inj ht
    rfl
  | case3 | case4 | case5 | case6 | case7 => cases ht

theorem ofNumber_integer {k : IntKind} {n : Int} (h : k.InRange n) :
    ofNumber (.integer k) (.integer n) = .ok (ofInt k n h) := by
  show (if h : k.InRange n then _ else _) = Except.ok (ofInt k n h)
  rw [dif_pos h]
  rfl

theorem ofNumber_float {number : Number} {x : Binary .double} {y : Binary .single}
    (hx : toDouble number = .ok x) (hy : Binary.convert .single x = y) :
    ofNumber (.floating .float) number = .ok ⟨.floating .float, y⟩ := by
  subst hy
  simp only [ofNumber, hx]
  rfl

theorem ofNumber_double {number : Number} {x : Binary .double} (hx : toDouble number = .ok x) :
    ofNumber (.floating .double) number = .ok ⟨.floating .double, x⟩ := by
  simp only [ofNumber, hx]
  rfl

theorem ofNumber_bigdecimal {number : Number} {d : Decimal} (hd : toDecimal number = d) :
    ofNumber .bigdecimal number = .ok ⟨.bigdecimal, d⟩ := by
  subst hd
  rfl

/-- **Promotion is construction** from the plain number, which cannot fail here. One case for each
pair of kinds; a `float` goes through a double and comes back unchanged. -/
theorem ofNumber_plain (v : Value) (k : Kind) (h : v.kind ≤ k) :
    ofNumber k v.plain = .ok ⟨k, v.widen k h⟩ := by
  -- the cases of promotion; all others would be narrowing
  match v, k, h with
  | ⟨.integer _, n⟩, .integer _, h => exact ofNumber_integer _
  | ⟨.integer _, n⟩, .floating .float, _ =>
    -- the double in between is exact
    exact ofNumber_float (toDouble_integer n.property)
      (Binary.convert_ofInt n.property.representable .single)
  | ⟨.integer _, n⟩, .floating .double, _ => exact ofNumber_double (toDouble_integer n.property)
  | ⟨.integer _, n⟩, .bigdecimal, _ => exact ofNumber_bigdecimal rfl
  | ⟨.floating .float, x⟩, .floating .float, _ =>
    exact ofNumber_float rfl (Format.single_embeds_double.convert_convert x)
  | ⟨.floating .float, x⟩, .floating .double, _ => exact ofNumber_double rfl
  | ⟨.floating .double, x⟩, .floating .double, _ =>
    exact ofNumber_double (congrArg Except.ok (Binary.convert_self x))
  | ⟨.floating .float, x⟩, .bigdecimal, _ =>
    exact ofNumber_bigdecimal (Format.single_embeds_double.toDecimal_convert x)
  | ⟨.floating .double, x⟩, .bigdecimal, _ =>
    exact ofNumber_bigdecimal (congrArg Binary.toDecimal (Binary.convert_self x))
  | ⟨.bigdecimal, d⟩, .bigdecimal, _ => exact ofNumber_bigdecimal rfl

theorem widen_self (v : Value) : v.widen v.kind (Nat.le_refl _) = v.number := by
  match v with
  | ⟨.integer _, n⟩ => rfl
  | ⟨.floating .float, x⟩ => rfl
  | ⟨.floating .double, x⟩ => rfl
  | ⟨.bigdecimal, d⟩ => rfl

/-- A value is the one that its kind and its number give. It is promotion to the same kind. -/
theorem ofNumber_plain_self (v : Value) : ofNumber v.kind v.plain = .ok v := by
  rw [ofNumber_plain v v.kind (Nat.le_refl _), widen_self]

end Value

/-! ## Well-formed values -/

/-- What a number of each kind has to be: an integer within the bounds of its width, a significand of
limited length times a power of two, a decimal that does not signal. The first two are part of what
the numbers of these kinds are; the last is not, and has to be known of a value. -/
def Kind.Admits : (k : Kind) → k.Number → Prop
  | .integer k, n => -2 ^ (k.bits - 1) ≤ n.val ∧ n.val ≤ 2 ^ (k.bits - 1) - 1
  | .floating k, x => ∀ negative units h, x = Binary.finite negative units h →
      units < 2 ^ k.format.bound ∧ ∃ m e, m < 2 ^ k.format.precision ∧ units = m * 2 ^ e
  | .bigdecimal, d => Decimal.signals d = false

/-- The number is one of the kind, and construction from it gives the value back. -/
structure Value.WellFormed (v : Value) : Prop where
  admits : v.kind.Admits v.number
  constructed : Value.ofNumber v.kind v.plain = .ok v

/-- The type of the numbers of a kind has its bounds built in, but a decimal may signal. -/
theorem Kind.admits : (k : Kind) → (x : k.Number) → k.signals x = false → k.Admits x
  | .integer .int8, n, _ => n.property
  | .integer .int16, n, _ => n.property
  | .integer .int32, n, _ => n.property
  | .floating _, _, _ => fun _ _ h _ => Format.representable_iff.mp h
  | .bigdecimal, _, h => h

/-- A value that does not signal is well formed. -/
theorem Value.wellFormed {v : Value} (h : v.signals = false) : v.WellFormed :=
  ⟨v.kind.admits v.number h, v.ofNumber_plain_self⟩

end StackMachine
