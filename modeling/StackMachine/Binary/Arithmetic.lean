import StackMachine.Binary.Basic

/-!
# Binary arithmetic

Each operation is the exact one followed by a single rounding. Overflow gives an infinity and an
operation without a value gives `nan`; neither is an error.
-/

namespace StackMachine.Binary

variable {fmt : Format}

/-- A sum of zero is positive unless both operands are negative. -/
def add : Binary fmt → Binary fmt → Binary fmt
  | .nan, _ => .nan
  | _, .nan => .nan
  | .infinity s, .infinity t => if s = t then .infinity s else .nan
  | .infinity s, .finite .. => .infinity s
  | .finite .., .infinity t => .infinity t
  | .finite s u _, .finite t v _ =>
    let sum := signed s u + signed t v
    ofUnits fmt (if sum = 0 then s && t else sum < 0) sum.natAbs 1

def sub (x y : Binary fmt) : Binary fmt :=
  x.add y.neg

def mul : Binary fmt → Binary fmt → Binary fmt
  | .nan, _ => .nan
  | _, .nan => .nan
  | .infinity s, .infinity t => .infinity (s ^^ t)
  | .infinity s, .finite t v _ => if v = 0 then .nan else .infinity (s ^^ t)
  | .finite s u _, .infinity t => if u = 0 then .nan else .infinity (s ^^ t)
  | .finite s u _, .finite t v _ => ofUnits fmt (s ^^ t) (u * v) (Nat.pow 2 fmt.scale)

def div : Binary fmt → Binary fmt → Binary fmt
  | .nan, _ => .nan
  | _, .nan => .nan
  | .infinity _, .infinity _ => .nan
  | .infinity s, .finite t _ _ => .infinity (s ^^ t)
  | .finite s _ _, .infinity t => zero (s ^^ t)
  | .finite s u _, .finite t v _ =>
    if v = 0 then if u = 0 then .nan else .infinity (s ^^ t)
    else ofUnits fmt (s ^^ t) (u * Nat.pow 2 fmt.scale) v

end StackMachine.Binary
