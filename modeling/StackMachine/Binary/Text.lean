import StackMachine.Binary.Shortest
import StackMachine.Decimal.Text

/-!
# Binary number text

A number is written with the fewest digits that read back. Medium magnitudes are written with a
point and at least one digit on either side of it, the others with an exponent of at least two
digits. Where the change happens is decided on the number itself and not on its digits.
-/

namespace StackMachine.Binary

variable {fmt : Format}

/-- The magnitudes written with a point: from `10^low` up to, but not including, `10^high`. -/
structure Layout where
  low : Int
  high : Int
deriving DecidableEq, Repr

/-- Whether `10^e` is at most `num / den`. -/
def powerLe (e : Int) (num den : Nat) : Bool :=
  let (n, d) := scaleByTen num den (-e)
  d ≤ n

def Layout.positional (layout : Layout) (fmt : Format) (units : Nat) : Bool :=
  powerLe layout.low units (Nat.pow 2 fmt.scale) && !powerLe layout.high units (Nat.pow 2 fmt.scale)

/-- A row of digits without the zeros at its end, but with its first digit. -/
def dropTrailingZeros : List Char → List Char
  | [] => []
  | d :: ds => d :: (ds.reverse.dropWhile (· == '0')).reverse

/-- Digits with a point so that `whole` of them stand before it and one or more after it. -/
def positionalText (ds : List Char) (whole : Int) : List Char :=
  let padded := ds ++ List.replicate (whole.toNat + 1 - ds.length) '0'
  Decimal.withPoint padded whole

/-- A decimal exponent of at least two digits. -/
def shortExponent (e : Int) : List Char :=
  let ds := Nat.toDigits 10 e.natAbs
  ['e', if e < 0 then '-' else '+'] ++ List.replicate (2 - ds.length) '0' ++ ds

def magnitudeText (layout : Layout) (fmt : Format) (units : Nat) : List Char :=
  let found := shortest fmt units
  let lead := Decimal.adjusted found.coefficient found.exponent
  let ds := dropTrailingZeros (Nat.toDigits 10 found.coefficient)
  if layout.positional fmt units then positionalText ds (lead + 1)
  else Decimal.withPoint ds 1 ++ shortExponent lead

def text (layout : Layout) : Binary fmt → List Char
  | .nan => "nan".toList
  | .infinity negative => Decimal.signText negative ++ "inf".toList
  | .finite negative units _ =>
    Decimal.signText negative
      ++ if units = 0 then "0.0".toList else magnitudeText layout fmt units

end StackMachine.Binary
