import StackMachine.Binary.Arithmetic
import StackMachine.Decimal.Arithmetic
import StackMachine.Value.Promotion

/-!
# Arithmetic on values

Both operands are promoted to the higher of their kinds, and the result has that kind. Integers
are computed exactly and must fit; floats never fail; decimals fail when their context says so. A
divisor is compared with zero first, which a signalling decimal does not allow.
-/

namespace StackMachine

inductive Operation where
  | add
  | sub
  | mul
  | div
  | mod
deriving DecidableEq, Repr

namespace Operation

def all : List Operation := [.add, .sub, .mul, .div, .mod]

def name : Operation → String
  | .add => "add"
  | .sub => "sub"
  | .mul => "mul"
  | .div => "div"
  | .mod => "mod"

/-- Whether the second operand is a divisor. -/
def divides : Operation → Bool
  | .div | .mod => true
  | _ => false

/-- The quotient of the magnitudes, negative if exactly one of the two numbers is. -/
def quotient (x y : Int) : Int :=
  signed (decide (0 ≤ x) != decide (0 ≤ y)) (x.natAbs / y.natAbs)

/-- What the quotient leaves over. -/
def remainder (x y : Int) : Int :=
  x - y * quotient x y

/-- The exact result on integers. -/
def onInt : Operation → Int → Int → Int
  | .add, x, y => x + y
  | .sub, x, y => x - y
  | .mul, x, y => x * y
  | .div, x, y => quotient x y
  | .mod, x, y => remainder x y

end Operation

namespace Decimal

/-- Sums, differences and products have to be exact in ten thousand digits. -/
def exactContext : Context :=
  ⟨10000, [.invalidOperation, .divisionByZero, .overflow, .inexact]⟩

/-- Quotients are rounded to one hundred digits. -/
def divisionContext : Context :=
  ⟨100, [.invalidOperation, .divisionByZero, .overflow]⟩

end Decimal

namespace Value

/-- Why two numbers of one kind have no result. -/
inductive Obstacle where
  | divisorZero
  | divisorNotInteger
  | outOfRange (result : Int)
  | trapped (conditions : Decimal.Trapped)
deriving DecidableEq

/-- An operation on two values that has no result. -/
structure ArithmeticError where
  op : Operation
  left : Value
  right : Value
  obstacle : Obstacle
deriving DecidableEq

def ArithmeticError.message (e : ArithmeticError) : String :=
  let kind := (e.left.kind.join e.right.kind).name
  let op := e.op.name
  let application := s!"{e.left.literal} {op} {e.right.literal}"
  match e.obstacle with
  | .divisorZero => s!"{op} by zero: {application}"
  | .divisorNotInteger => s!"{op} requires an integer divisor, got {kind}: {application}"
  | .outOfRange result =>
    s!"{kind} overflow: {application} = " ++ String.ofList (Kind.intText result)
  | .trapped conditions => s!"invalid {kind} {op}: {application} ({conditions.message})"

/-- What an operation raises in place of a result: an arithmetic error, or what the comparison of the
divisor with zero raised. -/
inductive Raised where
  | arithmetic (e : ArithmeticError)
  | signal (conditions : Decimal.Trapped)
deriving DecidableEq

def Raised.message : Raised → String
  | .arithmetic e => e.message
  | .signal conditions => conditions.classes

end Value

open Value in
/-- The result of an operation on two numbers of one kind, the divisor not being zero. -/
def Kind.operate (op : Operation) : (k : Kind) → k.Number → k.Number → Except Obstacle k.Number
  | .integer k, m, n =>
    let result := op.onInt m.val n.val
    if h : k.InRange result then .ok ⟨result, h⟩ else .error (.outOfRange result)
  | .floating _, x, y =>
    match op with
    | .add => .ok (Binary.add x y)
    | .sub => .ok (Binary.sub x y)
    | .mul => .ok (Binary.mul x y)
    | .div => .ok (Binary.div x y)
    | .mod => .error .divisorNotInteger
  | .bigdecimal, d, e =>
    let exact := Decimal.exactContext
    let division := Decimal.divisionContext
    match op with
    | .add => (exact.trap (exact.add d e)).mapError .trapped
    | .sub => (exact.trap (exact.sub d e)).mapError .trapped
    | .mul => (exact.trap (exact.mul d e)).mapError .trapped
    | .div => (division.trap (division.div d e)).mapError .trapped
    | .mod => .error .divisorNotInteger

namespace Value

def obstacleOrNumber (op : Operation) (a b : Value) :
    Except Obstacle (a.kind.join b.kind).Number :=
  let k := a.kind.join b.kind
  let x := a.widen k (kind_le_join_left a b)
  let y := b.widen k (kind_le_join_right a b)
  if op.divides && k.isZero y then .error .divisorZero else k.operate op x y

def apply (op : Operation) (a b : Value) : Except Raised Value :=
  let k := a.kind.join b.kind
  -- the divisor is compared with zero before anything else is done with the operands
  if op.divides && k.signals (b.widen k (kind_le_join_right a b)) then .error (.signal .signal)
  else
    match obstacleOrNumber op a b with
    | .ok x => .ok ⟨k, x⟩
    | .error obstacle => .error (.arithmetic ⟨op, a, b, obstacle⟩)

end Value

end StackMachine
