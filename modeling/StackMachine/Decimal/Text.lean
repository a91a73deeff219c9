import StackMachine.Decimal.Basic

/-!
# Decimal text

A decimal's text keeps its coefficient and its exponent. It is written with a point as long as no
zeros have to be added behind the coefficient and at most five in front of it, and with an
exponent otherwise.
-/

namespace StackMachine.Decimal

/-- Digits with a point so that `whole` of them stand before it, zeros in front as needed. -/
def withPoint (ds : List Char) (whole : Int) : List Char :=
  if whole ≤ 0 then ['0', '.'] ++ List.replicate (-whole).toNat '0' ++ ds
  else
    match ds.drop whole.toNat with
    | [] => ds
    | fraction => ds.take whole.toNat ++ ['.'] ++ fraction

/-- An exponent with its sign. -/
def exponentText (mark : Char) (e : Int) : List Char :=
  mark :: (if e < 0 then '-' else '+') :: Nat.toDigits 10 e.natAbs

def finiteText (c : Nat) (e : Int) : List Char :=
  let ds := Nat.toDigits 10 c
  let lead := adjusted c e
  if e ≤ 0 ∧ -6 ≤ lead then withPoint ds (lead + 1)
  else withPoint ds 1 ++ exponentText 'E' lead

def signText (negative : Bool) : List Char :=
  if negative then ['-'] else []

/-- Sign, word and digits of what is no number; without digits the word stands alone. -/
def nanText (n : NaN) : List Char :=
  signText n.negative ++ (if n.signalling then "sNaN" else "NaN").toList
    ++ if n.payload = 0 then [] else Nat.toDigits 10 n.payload

def text : Decimal → List Char
  | .nan n => nanText n
  | .infinity negative => signText negative ++ "Infinity".toList
  | .finite negative c e => signText negative ++ finiteText c e

end StackMachine.Decimal
