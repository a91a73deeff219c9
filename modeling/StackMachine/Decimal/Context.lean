import StackMachine.Decimal.Basic

/-!
# Decimal contexts

A context says how many digits a result may have, how far its exponents reach, and which
conditions are errors. `Context.round` brings an exact quotient into a context; all arithmetic is
an exact computation followed by it.
-/

namespace StackMachine.Decimal

/-- What can happen to a result, in the order in which conditions are reported. -/
inductive Condition where
  | invalidOperation
  | divisionByZero
  | overflow
  | inexact
deriving DecidableEq, Repr

def Condition.name : Condition → String
  | .invalidOperation => "InvalidOperation"
  | .divisionByZero => "DivisionByZero"
  | .overflow => "Overflow"
  | .inexact => "Inexact"

structure Context where
  precision : Nat
  traps : List Condition
deriving DecidableEq, Repr

/-- A result with the conditions that arose, in reporting order. -/
structure Outcome where
  value : Decimal
  conditions : List Condition := []
deriving DecidableEq, Repr

/-- The conditions that a context does not tolerate. -/
structure Trapped where
  first : Condition
  others : List Condition
deriving DecidableEq, Repr

/-- The conditions in a row. -/
def Trapped.classes (t : Trapped) : String :=
  let classes := (t.first :: t.others).map fun c => s!"<class 'decimal.{c.name}'>"
  "[" ++ ", ".intercalate classes ++ "]"

def Trapped.message (t : Trapped) : String :=
  t.first.name ++ "(" ++ t.classes ++ ")"

/-- What the comparison of a signalling decimal raises. -/
def Trapped.signal : Trapped :=
  ⟨.invalidOperation, []⟩

/-- The answer to a question about decimals, unless one of them signals. -/
def unlessSignal (signals answer : Bool) : Except Trapped Bool :=
  if signals then .error .signal else .ok answer

namespace Context

def trap (ctx : Context) (r : Outcome) : Except Trapped Decimal :=
  match r.conditions.filter (ctx.traps.contains ·) with
  | [] => .ok r.value
  | first :: others => .error ⟨first, others⟩

/-- The exponent of the last digit of the smallest numbers, which have less than full precision. -/
def tiny (ctx : Context) : Int :=
  minExponent - ctx.precision + 1

def zero (ctx : Context) (negative : Bool) (exponent : Int) : Decimal :=
  .finite negative 0 (max ctx.tiny (min maxExponent exponent))

end Context

/-- Takes up to `limit` zeros off the end of a coefficient and adds as much to the exponent. -/
def stripZeros : Nat → Nat → Int → Nat × Int
  | 0, c, e => (c, e)
  | limit + 1, c, e => if c % 10 = 0 then stripZeros limit (c / 10) (e + 1) else (c, e)

namespace Context

def overflowed (negative : Bool) : Outcome :=
  ⟨.infinity negative, [.overflow, .inexact]⟩

/-- The result with coefficient `c`, rounded at `place`. Rounding up can give one digit more than
the precision: then the coefficient is a power of ten and its last zero is dropped. -/
def carried (ctx : Context) (negative : Bool) (c : Nat) (place : Int) : Outcome :=
  if c = Nat.pow 10 ctx.precision then
    if maxExponent < place + ctx.precision then overflowed negative
    else ⟨.finite negative (Nat.pow 10 (ctx.precision - 1)) (place + 1), [.inexact]⟩
  else ⟨.finite negative c place, [.inexact]⟩

/-- The quotient `num / den · 10^ideal` in this context. It is rounded once, to the nearest with a
half going to the even neighbour, at the last place that precision and exponent range allow. An
exact result has the exponent `ideal`, or else the one nearest to it. -/
def round (ctx : Context) (negative : Bool) (num den : Nat) (ideal : Int) : Outcome :=
  if num = 0 then ⟨ctx.zero negative ideal, []⟩
  else
    let lead := leadingExponent num den + ideal
    let place := max (lead - ctx.precision + 1) ctx.tiny
    if maxExponent < lead then overflowed negative
    -- whole at the ideal exponent and short enough: kept as it is
    else if place ≤ ideal ∧ num % den = 0 then ⟨.finite negative (num / den) ideal, []⟩
    -- less than a tenth of the last place, so that no power of ten has to be written out
    else if lead + 1 < place then ⟨.finite negative 0 place, [.inexact]⟩
    else
      let (n, d) := scaleByTen num den (ideal - place)
      if n % d = 0 then
        let (c, e) := stripZeros (ideal - place).toNat (n / d) place
        ⟨.finite negative c e, []⟩
      else ctx.carried negative (roundDiv n d) place

end Context

end StackMachine.Decimal
