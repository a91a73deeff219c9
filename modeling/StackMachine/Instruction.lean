import StackMachine.Text.Quoted
import StackMachine.Value.Arithmetic

/-!
# Instructions

An instruction is an opcode with the operand that the opcode calls for: a value, a register, or
nothing.
-/

namespace StackMachine

def registerCount : Nat := 16

abbrev Register := Fin registerCount

inductive Opcode where
  | noop
  | push
  | pop
  | dump
  | clear
  | dup
  | swap
  | assert
  | arith (op : Operation)
  | load
  | store
  | print
  | exit
deriving DecidableEq, Repr

namespace Opcode

def all : List Opcode :=
  [.noop, .push, .pop, .dump, .clear, .dup, .swap, .assert] ++ Operation.all.map .arith
    ++ [.load, .store, .print, .exit]

def name : Opcode → String
  | .noop => "noop"
  | .push => "push"
  | .pop => "pop"
  | .dump => "dump"
  | .clear => "clear"
  | .dup => "dup"
  | .swap => "swap"
  | .assert => "assert"
  | .arith op => op.name
  | .load => "load"
  | .store => "store"
  | .print => "print"
  | .exit => "exit"

/-- The opcode of a name in lower case. -/
def ofName? (name : List Char) : Option Opcode :=
  all.find? (·.name.toList == name)

def takesValue : Opcode → Bool
  | .push | .assert => true
  | _ => false

def takesRegister : Opcode → Bool
  | .load | .store => true
  | _ => false

def takesOperand (op : Opcode) : Bool :=
  op.takesValue || op.takesRegister

end Opcode

inductive Instruction where
  | noop
  | push (v : Value)
  | pop
  | dump
  | clear
  | dup
  | swap
  | assert (v : Value)
  | arith (op : Operation)
  | load (r : Register)
  | store (r : Register)
  | print
  | exit
deriving DecidableEq

abbrev Program := List Instruction

/-- What may be offered as an operand before it is known to fit its opcode. -/
inductive Operand where
  | value (v : Value)
  | index (i : Int)
  | flag (b : Bool)
  | text (cs : List Char)
deriving DecidableEq

def Operand.shown : Operand → String
  | .value v => v.literal
  | .index i => String.ofList (Kind.intText i)
  | .flag b => if b then "True" else "False"
  | .text cs => Text.quoted cs

inductive OperandError where
  | unexpected (op : Opcode)
  | missing (op : Opcode)
  | notValue (op : Opcode) (operand : Operand)
  | notIndex (op : Opcode) (operand : Operand)
  | indexOutOfRange (i : Int)
deriving DecidableEq

def OperandError.message : OperandError → String
  | .unexpected op => s!"{op.name} takes no operand"
  | .missing op => s!"{op.name} requires an operand"
  | .notValue op operand => s!"{op.name} requires a value operand, got {operand.shown}"
  | .notIndex op operand => s!"{op.name} requires a register index, got {operand.shown}"
  | .indexOutOfRange i =>
    "register index " ++ String.ofList (Kind.intText i) ++ s!" out of range [0, {registerCount})"

namespace Instruction

def register (i : Int) : Except OperandError Register :=
  if h : 0 ≤ i ∧ i.toNat < registerCount then .ok ⟨i.toNat, h.2⟩ else .error (.indexOutOfRange i)

def withValue (op : Opcode) (build : Value → Instruction) :
    Option Operand → Except OperandError Instruction
  | none => .error (.missing op)
  | some (.value v) => .ok (build v)
  | some operand => .error (.notValue op operand)

def withRegister (op : Opcode) (build : Register → Instruction) :
    Option Operand → Except OperandError Instruction
  | none => .error (.missing op)
  | some (.index i) => (register i).map build
  | some operand => .error (.notIndex op operand)

def bare (op : Opcode) (i : Instruction) : Option Operand → Except OperandError Instruction
  | none => .ok i
  | some _ => .error (.unexpected op)

/-- The instruction with the given opcode and operand. -/
def make : Opcode → Option Operand → Except OperandError Instruction
  | .noop => bare .noop noop
  | .push => withValue .push push
  | .pop => bare .pop pop
  | .dump => bare .dump dump
  | .clear => bare .clear clear
  | .dup => bare .dup dup
  | .swap => bare .swap swap
  | .assert => withValue .assert assert
  | .arith op => bare (.arith op) (arith op)
  | .load => withRegister .load load
  | .store => withRegister .store store
  | .print => bare .print print
  | .exit => bare .exit exit

def opcode : Instruction → Opcode
  | .noop => .noop
  | .push _ => .push
  | .pop => .pop
  | .dump => .dump
  | .clear => .clear
  | .dup => .dup
  | .swap => .swap
  | .assert _ => .assert
  | .arith op => .arith op
  | .load _ => .load
  | .store _ => .store
  | .print => .print
  | .exit => .exit

def value? : Instruction → Option Value
  | .push v | .assert v => some v
  | _ => none

def register? : Instruction → Option Register
  | .load r | .store r => some r
  | _ => none

/-- The instruction as a source line. -/
def text (i : Instruction) : String :=
  match i.value?, i.register? with
  | some v, _ => i.opcode.name ++ " " ++ v.literal
  | none, some r => i.opcode.name ++ " " ++ String.ofList (Nat.toDigits 10 r.val)
  | none, none => i.opcode.name

/-- The comparison of two instructions: same opcode and equal operands. -/
def equals : Instruction → Instruction → Except Decimal.Trapped Bool
  | .push v, .push w => v.equals w
  | .assert v, .assert w => v.equals w
  | i, j => .ok (i.opcode == j.opcode && i.register? == j.register?)

end Instruction

/-- The comparison of two programs: same length, and equal instructions up to the first two that
differ. -/
def Program.equals (p q : Program) : Except Decimal.Trapped Bool :=
  if p.length = q.length then (p.zip q).allM fun (i, j) => i.equals j else .ok false

end StackMachine
