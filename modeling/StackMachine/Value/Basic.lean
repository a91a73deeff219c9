import StackMachine.Decimal.Context
import StackMachine.Kind

/-!
# Values

A value is a number together with its kind. What a number is depends on the kind, so that an
integer value is always in range and a float always has a float's precision. Numbers are asked
whether they are zero and whether they are equal; a decimal that signals leaves both questions without
an answer.
-/

namespace StackMachine

/-- The numbers of a kind. -/
def Kind.Number : Kind → Type
  | .integer k => { n : Int // k.InRange n }
  | .floating k => Binary k.format
  | .bigdecimal => Decimal

instance : (k : Kind) → DecidableEq k.Number
  | .integer k => inferInstanceAs (DecidableEq { n : Int // k.InRange n })
  | .floating k => inferInstanceAs (DecidableEq (Binary k.format))
  | .bigdecimal => inferInstanceAs (DecidableEq Decimal)

structure Value where
  kind : Kind
  number : kind.Number
deriving DecidableEq

namespace Kind

def intText (n : Int) : List Char :=
  Decimal.signText (n < 0) ++ Nat.toDigits 10 n.natAbs

def numberText : (k : Kind) → k.Number → List Char
  | .integer _, n => intText n.val
  | .floating k, x => Binary.text k.layout x
  | .bigdecimal, d => Decimal.text d

def isZero : (k : Kind) → k.Number → Bool
  | .integer _, n => n.val == 0
  | .floating _, x => Binary.isZero x
  | .bigdecimal, d => Decimal.isZero d

/-- Whether it is an error to compute with the number or to compare it. -/
def signals : (k : Kind) → k.Number → Bool
  | .bigdecimal, d => Decimal.signals d
  | _, _ => false

/-- Equality of numbers of one kind as numbers: `nan` equals nothing, signs of zero and trailing
zeros make no difference. -/
def numEq : (k : Kind) → k.Number → k.Number → Bool
  | .integer _, m, n => m.val == n.val
  | .floating _, x, y => Binary.numEq x y
  | .bigdecimal, d, e => Decimal.numEq d e

/-- The comparison of a number with zero. -/
def testZero (k : Kind) (x : k.Number) : Except Decimal.Trapped Bool :=
  Decimal.unlessSignal (k.signals x) (k.isZero x)

/-- The comparison of two numbers of one kind. -/
def equals (k : Kind) (x y : k.Number) : Except Decimal.Trapped Bool :=
  Decimal.unlessSignal (k.signals x || k.signals y) (k.numEq x y)

end Kind

namespace Value

def ofInt (k : IntKind) (n : Int) (h : k.InRange n) : Value :=
  ⟨.integer k, ⟨n, h⟩⟩

def isZero (v : Value) : Bool :=
  v.kind.isZero v.number

def signals (v : Value) : Bool :=
  v.kind.signals v.number

/-- The comparison of a value with zero. -/
def testZero (v : Value) : Except Decimal.Trapped Bool :=
  v.kind.testZero v.number

/-- The number alone. -/
def text (v : Value) : String :=
  String.ofList (v.kind.numberText v.number)

/-- The kind and the number, in the form in which programs write values. -/
def literal (v : Value) : String :=
  v.kind.name ++ "(" ++ v.text ++ ")"

/-- The integer that a value of an integer kind is. -/
def int? : Value → Option Int
  | ⟨.integer _, n⟩ => some n.val
  | _ => none

end Value

end StackMachine
