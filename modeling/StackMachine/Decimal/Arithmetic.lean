import StackMachine.Decimal.Context

/-!
# Decimal arithmetic

Sum, difference, product and quotient in a context. A sum is computed at the smaller of the two
exponents; an operand too small to reach the precision of the sum is replaced by a single digit
far below it, which decides the rounding in the same way. An operand that is no number is handed on
as the result.
-/

namespace StackMachine.Decimal.Context

/-- Of a first operand that is no number and any second one, the operand that is handed on: the first,
unless only the second signals. -/
def handedOn (m : NaN) : Decimal → NaN
  | .nan n => if n.signalling && !m.signalling then n else m
  | _ => m

/-- What is handed on no longer signals, and keeps as many of its last digits as the precision allows.
That it did signal is a condition. -/
def quiet (ctx : Context) (n : NaN) : Outcome :=
  ⟨.nan ⟨n.negative, false, n.payload % Nat.pow 10 ctx.precision⟩,
    if n.signalling then [.invalidOperation] else []⟩

/-- The result of an operation that makes no sense. -/
def invalid : Outcome :=
  ⟨.nan {}, [.invalidOperation]⟩

/-- A smaller operand as it takes part in a sum with `c · 10^e`. When it lies wholly more than two
places below the precision only its being nonzero matters. -/
def reaching (ctx : Context) (c : Nat) (e : Int) (d : Nat) (f : Int) : Nat × Int :=
  if c ≠ 0 ∧ f + digitCount d < e - ctx.precision - 2 then (min d 1, e - ctx.precision - 2)
  else (d, f)

/-- The sum of two finite decimals of which the first has the larger exponent. A sum of zero is
positive unless both operands are negative. -/
def addOrdered (ctx : Context) (s : Bool) (c : Nat) (e : Int) (t : Bool) (d : Nat) (f : Int) :
    Outcome :=
  let (d', f') := ctx.reaching c e d f
  let shifted := if c = 0 then 0 else c * Nat.pow 10 (e - f').toNat
  let sum := signed s shifted + signed t d'
  ctx.round (if sum = 0 then s && t else sum < 0) sum.natAbs 1 f'

def add (ctx : Context) : Decimal → Decimal → Outcome
  | .nan m, y => ctx.quiet (handedOn m y)
  | _, .nan n => ctx.quiet n
  | .infinity s, .infinity t =>
    if s = t then ⟨.infinity s, []⟩ else invalid
  | .infinity s, .finite .. => ⟨.infinity s, []⟩
  | .finite .., .infinity t => ⟨.infinity t, []⟩
  | .finite s c e, .finite t d f =>
    if f ≤ e then ctx.addOrdered s c e t d f else ctx.addOrdered t d f s c e

def sub (ctx : Context) (x y : Decimal) : Outcome :=
  ctx.add x y.neg

def mul (ctx : Context) : Decimal → Decimal → Outcome
  | .nan m, y => ctx.quiet (handedOn m y)
  | _, .nan n => ctx.quiet n
  | .infinity s, .infinity t => ⟨.infinity (s ^^ t), []⟩
  | .infinity s, .finite t d _ =>
    if d = 0 then invalid else ⟨.infinity (s ^^ t), []⟩
  | .finite s c _, .infinity t =>
    if c = 0 then invalid else ⟨.infinity (s ^^ t), []⟩
  | .finite s c e, .finite t d f => ctx.round (s ^^ t) (c * d) 1 (e + f)

def div (ctx : Context) : Decimal → Decimal → Outcome
  | .nan m, y => ctx.quiet (handedOn m y)
  | _, .nan n => ctx.quiet n
  | .infinity _, .infinity _ => invalid
  | .infinity s, .finite t _ _ => ⟨.infinity (s ^^ t), []⟩
  | .finite s _ _, .infinity t => ⟨.finite (s ^^ t) 0 ctx.tiny, []⟩
  | .finite s c e, .finite t d f =>
    if d = 0 then
      if c = 0 then invalid else ⟨.infinity (s ^^ t), [.divisionByZero]⟩
    else ctx.round (s ^^ t) c d (e - f)

end StackMachine.Decimal.Context
