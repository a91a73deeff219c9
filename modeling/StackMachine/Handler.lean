import StackMachine.Assembly
import StackMachine.Sink

/-!
# Handlers

What each instruction does to the memory of a process, to its sink and to its status. A handler is a
row of actions that change the stage in place. It may raise something at any point, and then the stage
stays as it is at that moment: nothing is taken back. Whether an instruction is applied as a whole is
therefore a matter of the order in which its handler tests and acts.
-/

namespace StackMachine

/-- The operand stack, top first, and the registers. -/
structure Memory where
  stack : List Value
  registers : Vector (Option Value) registerCount
deriving DecidableEq

def Memory.empty : Memory :=
  ⟨[], Vector.replicate registerCount none⟩

/-- Why an instruction cannot be executed. -/
inductive Fault where
  | stackUnderflow (needed available : Nat)
  | uninitialized (r : Register)
  | arithmetic (e : Value.ArithmeticError)
  | assertionFailed (expected found : Value)
  | notPrintable (v : Value)
deriving DecidableEq

namespace Fault

/-- The category of a fault. -/
def kind : Fault → String
  | .stackUnderflow .. => "StackUnderflow"
  | .uninitialized _ => "UninitializedRegister"
  | .arithmetic _ => "ArithmeticError"
  | .assertionFailed .. => "AssertionFailed"
  | .notPrintable _ => "TypeError"

def message : Fault → String
  | .stackUnderflow needed available =>
    s!"stack underflow: need {needed} value(s), have {available}"
  | .uninitialized r => s!"register {r.val} is uninitialized"
  | .arithmetic e => e.message
  | .assertionFailed expected found =>
    s!"assertion failed: expected {expected.literal}, found {found.literal}"
  | .notPrintable v => s!"print requires an int8 character code in [0, 127], got {v.literal}"

end Fault

/-- The character that an 8-bit integer in the ASCII range is the code of. -/
def Value.printable? : Value → Option Char
  | ⟨.integer .int8, n⟩ => if 0 ≤ n.val then some (Char.ofNat n.val.toNat) else none
  | _ => none

inductive Status where
  | running
  | exited
  | failed
deriving DecidableEq, Repr

def Status.name : Status → String
  | .running => "running"
  | .exited => "exited"
  | .failed => "failed"

/-- An error that is none of the machine's own. -/
inductive Crash where
  /-- A text was written to a closed sink. -/
  | sinkClosed
  /-- A number that signals was compared. -/
  | signal (conditions : Decimal.Trapped)
  /-- An integer has too many digits to be written in a message. -/
  | unwritable
  /-- There is no value at a place of the stack that was read or written. -/
  | stackIndex
  /-- A value was taken off the empty stack. -/
  | emptyStack
deriving DecidableEq, Repr

def Crash.message : Crash → String
  | .sinkClosed => "I/O operation on closed file"
  | .signal conditions => conditions.classes
  | .unwritable => unwritableMessage
  | .stackIndex => "list index out of range"
  | .emptyStack => "pop from empty list"

/-- What an instruction raises. -/
inductive Exception where
  | fault (cause : Fault)
  | crash (c : Crash)
deriving DecidableEq

/-- What an operation on values raises, raised by an instruction. -/
def Value.Raised.exception : Value.Raised → Exception
  | .arithmetic e => .fault (.arithmetic e)
  | .signal conditions => .crash (.signal conditions)

/-! ### Actions -/

/-- What the handlers of instructions act on. -/
structure Stage where
  memory : Memory
  status : Status
  sink : Sink
deriving DecidableEq

abbrev Handler := EStateM Exception Stage

namespace Handler

def stack : Handler (List Value) :=
  return (← get).memory.stack

def setStack (s : List Value) : Handler Unit :=
  modify fun stage => { stage with memory := { stage.memory with stack := s } }

/-- Refuses an instruction that needs more values than there are. -/
def require (depth : Nat) : Handler Unit := do
  let s ← stack
  if s.length < depth then throw (.fault (.stackUnderflow depth s.length))

/-- The value that lies so many places below the top. -/
def peek (depth : Nat) : Handler Value := do
  match (← stack)[depth]? with
  | some v => return v
  | none => throw (.crash .stackIndex)

/-- Puts a value in the place of the one that lies so many places below the top. -/
def poke (depth : Nat) (v : Value) : Handler Unit := do
  let s ← stack
  if depth < s.length then setStack (s.set depth v) else throw (.crash .stackIndex)

def push (v : Value) : Handler Unit := do
  setStack (v :: (← stack))

def pop : Handler Value := do
  match ← stack with
  | v :: s =>
    setStack s
    return v
  | [] => throw (.crash .emptyStack)

def setRegister (r : Register) (v : Value) : Handler Unit :=
  modify fun stage =>
    { stage with memory.registers := Vector.set stage.memory.registers r (some v) r.isLt }

def emit (text : String) : Handler Unit := do
  match (← get).sink.write? text with
  | some sink => modify ({ · with sink })
  | none => throw (.crash .sinkClosed)

/-- The result of a comparison. -/
def compared : Except Decimal.Trapped Bool → Handler Bool
  | .ok answer => return answer
  | .error conditions => throw (.crash (.signal conditions))

/-- The result of an operation. -/
def computed : Except Value.Raised Value → Handler Value
  | .ok v => return v
  | .error e => throw e.exception

end Handler

/-! ### Instructions -/

namespace Instruction

open Handler in
def handle : Instruction → Handler Unit
  | .noop => return
  | .push v => Handler.push v
  | .pop => do
    require 1
    let _ ← Handler.pop
  | .dump => do
    (← stack).forM fun v => emit (v.text ++ "\n")
  | .clear => setStack []
  | .dup => do
    require 1
    Handler.push (← peek 0)
  | .swap => do
    require 2
    let next ← peek 1
    let top ← peek 0
    poke 0 next
    poke 1 top
  | .assert expected => do
    require 1
    -- the value stays on the stack whatever the comparison says
    let actual ← peek 0
    let equal ← compared (actual.equals expected)
    if !equal then throw (.fault (.assertionFailed expected actual))
  | .arith op => do
    require 2
    let left ← peek 1
    let right ← peek 0
    -- the operands are only looked at, and taken off once there is a result
    let result ← computed (left.apply op right)
    setStack ((← stack).drop 2)
    Handler.push result
  | .load r => do
    match (← get).memory.registers.get r with
    | some v => Handler.push v
    | none => throw (.fault (.uninitialized r))
  | .store r => do
    require 1
    setRegister r (← Handler.pop)
  | .print => do
    require 1
    let top ← peek 0
    match top.printable? with
    | some c => emit c.toString
    | none => throw (.fault (.notPrintable top))
  | .exit => modify ({ · with status := .exited })

end Instruction

end StackMachine
