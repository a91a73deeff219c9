import StackMachine.Value.Basic

/-!
# Promotion

A value of one kind as a value of a higher one. Integers become the nearest float, which differs
from them only for large 32-bit integers; every other promotion keeps the number.
-/

namespace StackMachine

namespace Value

/-- The number that a value is in a kind of its own rank or higher. -/
def widen : (v : Value) → (k : Kind) → v.kind ≤ k → k.Number
  | ⟨.integer _, n⟩, .integer _, h =>
    ⟨n.val, n.property.widen (Kind.bits_le_of_le h)⟩
  | ⟨.integer _, n⟩, .floating k, _ => Binary.ofInt k.format n.val
  | ⟨.integer _, n⟩, .bigdecimal, _ => Decimal.ofInt n.val
  | ⟨.floating .float, x⟩, .floating .float, _ => x
  | ⟨.floating .float, x⟩, .floating .double, _ => Binary.convert .double x
  | ⟨.floating .double, x⟩, .floating .double, _ => x
  | ⟨.floating _, x⟩, .bigdecimal, _ => Binary.toDecimal x
  | ⟨.bigdecimal, d⟩, .bigdecimal, _ => d

/-- A value and the lower kind it was to be turned into. -/
structure Narrowing where
  value : Value
  target : Kind
deriving DecidableEq

def Narrowing.message (e : Narrowing) : String :=
  s!"cannot narrow {e.value.literal} to {e.target.name}"

def promote (v : Value) (k : Kind) : Except Narrowing Value :=
  if h : v.kind ≤ k then .ok ⟨k, v.widen k h⟩ else .error ⟨v, k⟩

theorem kind_le_join_left (a b : Value) : a.kind ≤ a.kind.join b.kind :=
  Kind.le_join_left ..

theorem kind_le_join_right (a b : Value) : b.kind ≤ a.kind.join b.kind :=
  Kind.le_join_right ..

/-- Equality of values of any two kinds as numbers: both are promoted to the higher kind. -/
def numEq (a b : Value) : Bool :=
  let k := a.kind.join b.kind
  k.numEq (a.widen k (kind_le_join_left a b)) (b.widen k (kind_le_join_right a b))

/-- The comparison of two values, which is that of the promoted numbers. -/
def equals (a b : Value) : Except Decimal.Trapped Bool :=
  let k := a.kind.join b.kind
  k.equals (a.widen k (kind_le_join_left a b)) (b.widen k (kind_le_join_right a b))

end Value

end StackMachine
