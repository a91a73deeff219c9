import StackMachine.Binary.Basic

/-!
# Shortest decimals

The decimal with the fewest digits that rounds to a given number of a format. For each number of
digits only the two decimals next to the number can do: if any decimal of that length lies in the
interval that rounds to it, so does one of these two.
-/

namespace StackMachine.Binary

/-- A row of digits `coefficient` standing at `10^exponent`. -/
structure Digits where
  coefficient : Nat
  exponent : Int
deriving DecidableEq, Repr

/-- Whether `coefficient · 10^exponent` rounds to the given number of units. -/
def readsBack (fmt : Format) (units coefficient : Nat) (exponent : Int) : Bool :=
  let (num, den) := scaleByTen coefficient 1 exponent
  fmt.nearest (num * Nat.pow 2 fmt.scale) den == units

/-- The nearest decimal on the grid `10^exponent` that reads back, if one of the two neighbours
does. Of two that do and are equally near, the even one. -/
def onGrid? (fmt : Format) (units : Nat) (exponent : Int) : Option Digits :=
  let (num, den) := scaleByTen units (Nat.pow 2 fmt.scale) (-exponent)
  let below := num / den
  let near := roundDiv num den
  let far := if near = below then below + 1 else below
  if readsBack fmt units near exponent then some ⟨near, exponent⟩
  else if readsBack fmt units far exponent then some ⟨far, exponent⟩
  else none

/-- Tries grids from `exponent` downwards. The last resort is the exact value, which has at most
`scale` digits behind the point. -/
def shortestFrom (fmt : Format) (units : Nat) : Nat → Int → Digits
  | 0, _ => ⟨units * Nat.pow 5 fmt.scale, -(fmt.scale : Int)⟩
  | tries + 1, exponent =>
    match onGrid? fmt units exponent with
    | some ds => ds
    | none => shortestFrom fmt units tries (exponent - 1)

/-- The shortest decimal that rounds to a nonzero number of units. A significand of `p` bits never
needs `p` digits. -/
def shortest (fmt : Format) (units : Nat) : Digits :=
  shortestFrom fmt units fmt.precision (leadingExponent units (Nat.pow 2 fmt.scale))

end StackMachine.Binary
