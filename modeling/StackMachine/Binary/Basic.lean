import StackMachine.Decimal.Basic

/-!
# Binary floating point

All finite numbers of a format are whole multiples of its smallest one. They are stored as that
multiple, so that sums, products and comparisons are computed on natural numbers, and every
number has exactly one form for each sign. Rounding to a format is one division by a power of two.
-/

namespace StackMachine

/-- A binary format: the bits of a significand, the unit `2^-scale` of which all finite numbers
are multiples, and the bound `2^bound` (in units) below which they lie. -/
structure Format where
  precision : Nat
  scale : Nat
  bound : Nat
deriving DecidableEq, Repr

namespace Format

def single : Format := ⟨24, 149, 277⟩

def double : Format := ⟨53, 1074, 2098⟩

/-- The distance between neighbouring numbers at a magnitude of `units`. -/
def spacing (fmt : Format) (units : Nat) : Nat :=
  Nat.pow 2 (units.log2 + 1 - fmt.precision)

/-- Whether a number of units is a number of the format. -/
def Representable (fmt : Format) (units : Nat) : Prop :=
  units < Nat.pow 2 fmt.bound ∧ units % fmt.spacing units = 0

instance (fmt : Format) (units : Nat) : Decidable (fmt.Representable units) :=
  inferInstanceAs (Decidable (_ ∧ _))

theorem representable_zero (fmt : Format) : fmt.Representable 0 :=
  ⟨Nat.two_pow_pos _, Nat.zero_mod _⟩

/-- The nearest number to `num / den` units when the magnitude is not bounded; a half goes to the
neighbour with the even significand. -/
def nearest (fmt : Format) (num den : Nat) : Nat :=
  let gap := fmt.spacing (num / den)
  roundDiv num (den * gap) * gap

end Format

inductive Binary (fmt : Format) where
  | nan
  | infinity (negative : Bool)
  | finite (negative : Bool) (units : Nat) (representable : fmt.Representable units)
deriving DecidableEq, Repr

namespace Binary

variable {fmt : Format}

def zero (negative : Bool) : Binary fmt :=
  .finite negative 0 fmt.representable_zero

/-- The number of the format nearest to `num / den` units; beyond the largest one, infinity. -/
def ofUnits (fmt : Format) (negative : Bool) (num den : Nat) : Binary fmt :=
  let units := fmt.nearest num den
  if h : fmt.Representable units then .finite negative units h else .infinity negative

/-- The number of the format nearest to `num / den`. -/
def ofRatio (fmt : Format) (negative : Bool) (num den : Nat) : Binary fmt :=
  ofUnits fmt negative (num * Nat.pow 2 fmt.scale) den

def ofInt (fmt : Format) (n : Int) : Binary fmt :=
  ofRatio fmt (n < 0) n.natAbs 1

/-- The number of the format nearest to `± coefficient · 10^exponent`. Magnitudes that are beyond
doubt too large or too small are settled by the exponent of the leading digit alone: ten is more
than eight, so `10^e` is at least `2^(3e)` for `e ≥ 0` and at most that below zero. -/
def ofDecimal (fmt : Format) (negative : Bool) (coefficient : Nat) (exponent : Int) : Binary fmt :=
  let lead := Decimal.adjusted coefficient exponent
  if coefficient = 0 ∨ 3 * (lead + 1) < -(fmt.scale + 1 : Nat) then zero negative
  else if (fmt.bound : Int) < 3 * lead + fmt.scale then .infinity negative
  else
    let (num, den) := scaleByTen coefficient 1 exponent
    ofRatio fmt negative num den

def ofNumberText (fmt : Format) : NumberText → Binary fmt
  | .numeral n => ofDecimal fmt n.negative n.coefficient n.exponent
  | .infinity negative => .infinity negative
  | .nan _ => .nan

/-- The nearest number of another format. -/
def convert (target : Format) : Binary fmt → Binary target
  | .nan => .nan
  | .infinity negative => .infinity negative
  | .finite negative units _ => ofRatio target negative units (Nat.pow 2 fmt.scale)

def neg : Binary fmt → Binary fmt
  | .nan => .nan
  | .infinity negative => .infinity !negative
  | .finite negative units h => .finite (!negative) units h

def isFinite : Binary fmt → Bool
  | .finite .. => true
  | _ => false

def isZero : Binary fmt → Bool
  | .finite _ units _ => units == 0
  | _ => false

/-- Equality of values: `nan` equals nothing, the two zeros are equal. -/
def numEq : Binary fmt → Binary fmt → Bool
  | .infinity s, .infinity t => s == t
  | .finite s u _, .finite t v _ => u == v && (u == 0 || s == t)
  | _, _ => false

/-- Halves `n` up to `limit` times as long as it is even, and gives the halvings left over: the
fraction `n / 2^limit` in lowest terms. -/
def lowestTerms : Nat → Nat → Nat × Nat
  | n, 0 => (n, 0)
  | n, limit + 1 => if n % 2 = 0 then lowestTerms (n / 2) limit else (n, limit + 1)

/-- The same number as a decimal: `n / 2^k` in lowest terms is `n · 5^k / 10^k`. What is no number
becomes a quiet one without sign or digits. -/
def toDecimal : Binary fmt → Decimal
  | .nan => .nan {}
  | .infinity negative => .infinity negative
  | .finite negative units _ =>
    let (n, k) := lowestTerms units fmt.scale
    .finite negative (n * Nat.pow 5 k) (-(k : Int))

end Binary

end StackMachine
