import StackMachine.Value.Arithmetic

/-!
# Operators

An operator stands between a value and anything. Between two values it is the operation of its symbol
and the comparison of values; with anything else on the right there is no operation, and no equality.
-/

namespace StackMachine

/-- What stands on the right of an operator. Of what is no value, only the name of its type is told. -/
inductive RightSide where
  | value (v : Value)
  | foreign (typeName : String)
deriving DecidableEq

def Operation.symbol : Operation → String
  | .add => "+"
  | .sub => "-"
  | .mul => "*"
  | .div => "/"
  | .mod => "%"

/-- The operation with the given symbol. -/
def Operation.ofSymbol? (symbol : String) : Option Operation :=
  all.find? (·.symbol == symbol)

inductive OperatorError where
  | raised (e : Value.Raised)
  | unsupported (op : Operation) (typeName : String)
deriving DecidableEq

def OperatorError.message : OperatorError → String
  | .raised e => e.message
  | .unsupported op typeName =>
    s!"unsupported operand type(s) for {op.symbol}: 'Value' and '{typeName}'"

namespace Value

def operator (op : Operation) (a : Value) : RightSide → Except OperatorError Value
  | .value b => (a.apply op b).mapError .raised
  | .foreign typeName => .error (.unsupported op typeName)

/-- Whether a value equals what stands on the right. -/
def equalsAny (a : Value) : RightSide → Except Decimal.Trapped Bool
  | .value b => a.equals b
  | .foreign _ => .ok false

end Value

end StackMachine
