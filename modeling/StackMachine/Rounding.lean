/-!
# Rounding and magnitude of quotients

Quotients of natural numbers rounded to the nearest whole number, and the place of their leading
decimal digit. Both number formats with limited precision are built on these two.
-/

namespace StackMachine

/-- The whole number nearest to `num / den`; a half goes to the even neighbour. -/
def roundDiv (num den : Nat) : Nat :=
  let q := num / den
  let r := num % den
  if 2 * r < den then q
  else if den < 2 * r then q + 1
  else q + q % 2

/-- The number of decimal digits of `n`; zero has one. -/
def digitCount (n : Nat) : Nat :=
  (Nat.toDigits 10 n).length

/-- Numerator and denominator of `num / den · 10^shift`. -/
def scaleByTen (num den : Nat) (shift : Int) : Nat × Nat :=
  if 0 ≤ shift then (num * Nat.pow 10 shift.toNat, den) else (num, den * Nat.pow 10 (-shift).toNat)

/-- The exponent of the leading decimal digit of `num / den`, where neither is zero: the largest
`e` with `10^e ≤ num / den`. -/
def leadingExponent (num den : Nat) : Int :=
  let e : Int := digitCount num - digitCount den
  let (n, d) := scaleByTen num den (-e)
  if d ≤ n then e else e - 1

end StackMachine
