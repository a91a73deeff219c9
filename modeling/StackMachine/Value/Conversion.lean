import StackMachine.Value.Basic

/-!
# Values from plain numbers

A plain number has no kind yet: it is an integer of any size, a double or a decimal. Turning it
into a value of a given kind cuts fractions off for integers, rounds for floats, and is exact for
decimals.
-/

namespace StackMachine

inductive Number where
  | integer (n : Int)
  | floating (x : Binary .double)
  | decimal (d : Decimal)
deriving DecidableEq

namespace Value

inductive ConversionError where
  | outOfRange (n : Int) (kind : IntKind)
  /-- The integer has too many digits to be written in a message. -/
  | unwritable
  | floatInfinity
  | floatNaN
  | decimalInfinity
  | decimalNaN
  | decimalSignal
  | tooLargeForFloat
deriving DecidableEq

def ConversionError.message : ConversionError → String
  | .outOfRange n kind => String.ofList (Kind.intText n) ++ s!" out of range for {kind.name}"
  | .unwritable => unwritableMessage
  | .floatInfinity => "cannot convert float infinity to integer"
  | .floatNaN => "cannot convert float NaN to integer"
  | .decimalInfinity => "cannot convert Infinity to integer"
  | .decimalNaN => "cannot convert NaN to integer"
  | .decimalSignal => "cannot convert signaling NaN to float"
  | .tooLargeForFloat => "int too large to convert to float"

/-- The whole part of `c · 10^e`. -/
def wholePart (c : Nat) (e : Int) : Nat :=
  if 0 ≤ e then c * Nat.pow 10 e.toNat
  else if (-e).toNat < digitCount c then c / Nat.pow 10 (-e).toNat
  else 0

/-- The whole part of a number, cut towards zero. A decimal whose whole part is too long to be
written is not expanded. -/
def truncated : Number → Except ConversionError Int
  | .integer n => .ok n
  | .floating .nan => .error .floatNaN
  | .floating (.infinity _) => .error .floatInfinity
  | .floating (.finite negative units _) =>
    .ok (signed negative (units / Nat.pow 2 Format.double.scale))
  | .decimal (.nan _) => .error .decimalNaN
  | .decimal (.infinity _) => .error .decimalInfinity
  | .decimal (.finite negative c e) =>
    if c = 0 then .ok 0
    else if (digitLimit : Int) ≤ Decimal.adjusted c e then .error .unwritable
    else .ok (signed negative (wholePart c e))

def toDouble : Number → Except ConversionError (Binary .double)
  | .integer n =>
    match Binary.ofInt .double n with
    | .infinity _ => .error .tooLargeForFloat
    | x => .ok x
  | .floating x => .ok x
  | .decimal (.nan n) => if n.signalling then .error .decimalSignal else .ok .nan
  | .decimal (.infinity negative) => .ok (.infinity negative)
  | .decimal (.finite negative c e) => .ok (Binary.ofDecimal .double negative c e)

def toDecimal : Number → Decimal
  | .integer n => Decimal.ofInt n
  | .floating x => x.toDecimal
  | .decimal d => d

def ofNumber (k : Kind) (number : Number) : Except ConversionError Value :=
  match k with
  | .integer k => do
    let n ← truncated number
    if h : k.InRange n then return ofInt k n h
    else if digitLimit < digitCount n.natAbs then throw .unwritable
    else throw (.outOfRange n k)
  | .floating .float => do return ⟨.floating .float, Binary.convert .single (← toDouble number)⟩
  | .floating .double => do return ⟨.floating .double, ← toDouble number⟩
  | .bigdecimal => return ⟨.bigdecimal, toDecimal number⟩

end Value

end StackMachine
