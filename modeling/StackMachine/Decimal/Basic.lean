import StackMachine.Numeral
import StackMachine.Rounding

/-!
# Decimals

A decimal is a signed coefficient and a power of ten. Coefficient and exponent are kept as they
are: `1.0` and `1.00` are two decimals with one value, and there are two zeros for each exponent.
What is no number keeps its sign and its digits, and whether it signals.
Exponents have up to nineteen digits, so nothing here writes a decimal out in full unless its
exponent is known to be small.
-/

namespace StackMachine

inductive Decimal where
  | nan (n : NaN)
  | infinity (negative : Bool)
  | finite (negative : Bool) (coefficient : Nat) (exponent : Int)
deriving DecidableEq, Repr

namespace Decimal

/-- The largest exponent a leading digit can have. -/
def maxExponent : Int := 999999999999999999

/-- The smallest exponent a leading digit can have without loss of precision. -/
def minExponent : Int := -999999999999999999

/-- The smallest exponent a last digit can have. -/
def leastExponent : Int := -1999999999999999997

/-- The exponent of the leading digit; a zero counts as one digit. -/
def adjusted (coefficient : Nat) (exponent : Int) : Int :=
  exponent + (digitCount coefficient - 1 : Nat)

def ofInt (n : Int) : Decimal :=
  .finite (n < 0) n.natAbs 0

/-- The decimal that a numeral writes, unless its exponent is out of bounds. -/
def ofNumeral? (n : Numeral) : Option Decimal :=
  if adjusted n.coefficient n.exponent ≤ maxExponent ∧ leastExponent ≤ n.exponent then
    some (.finite n.negative n.coefficient n.exponent)
  else none

def ofNumberText? : NumberText → Option Decimal
  | .numeral n => ofNumeral? n
  | .infinity negative => some (.infinity negative)
  | .nan n => some (.nan n)

/-- The decimal with the other sign. What is no number is left as it is. -/
def neg : Decimal → Decimal
  | .nan n => .nan n
  | .infinity negative => .infinity !negative
  | .finite negative c e => .finite (!negative) c e

def isZero : Decimal → Bool
  | .finite _ c _ => c == 0
  | _ => false

def isFinite : Decimal → Bool
  | .finite .. => true
  | _ => false

/-- Whether it is an error to compute with the decimal or to compare it. -/
def signals : Decimal → Bool
  | .nan n => n.signalling
  | _ => false

/-- Whether two nonzero magnitudes are equal. Their leading digits are compared first, so that the
exponents differ by no more than the numbers of digits when the coefficients are aligned. -/
def sameMagnitude (c : Nat) (e : Int) (d : Nat) (f : Int) : Bool :=
  adjusted c e == adjusted d f &&
    if f ≤ e then c * Nat.pow 10 (e - f).toNat == d else c == d * Nat.pow 10 (f - e).toNat

/-- Equality of values: `nan` equals nothing, the two zeros are equal. -/
def numEq : Decimal → Decimal → Bool
  | .infinity s, .infinity t => s == t
  | .finite s c e, .finite t d f =>
    if c = 0 ∨ d = 0 then c == 0 && d == 0 else s == t && sameMagnitude c e d f
  | _, _ => false

end Decimal

end StackMachine
