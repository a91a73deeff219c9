import StackMachine.Command.Arguments
import StackMachine.Machine.Config
import StackMachine.Numeral

/-!
# Invocations

The commands that can be given on the command line: to run programs, to check them, and to write
one in normal form.
-/

namespace StackMachine

inductive Command where
  | run (files : List String) (config : Config) (interleave json : Bool)
  | check (files : List String) (json : Bool)
  | disasm (file : String)
deriving DecidableEq

namespace Command

def files : Command → List String
  | .run files .. => files
  | .check files _ => files
  | .disasm file => [file]

structure Invocation where
  verbose : Bool
  command : Command
deriving DecidableEq

def verboseSwitch : Switch := ⟨"--verbose", some 'v', false⟩

def budgetSwitch : Switch := ⟨"--budget", some 'b', true⟩

def interleaveSwitch : Switch := ⟨"--interleave", none, false⟩

def jsonSwitch : Switch := ⟨"--json-output", some 'j', false⟩

/-- The configuration for a step budget as typed; a budget is at least one. -/
def readConfig? : Option String → Option Config
  | none => some .standard
  | some typed =>
    match Numeral.readTypedInteger? typed.toList with
    | none => none
    | some n => if h : 0 < n then some (.withBudget n.toNat (Config.toNat_pos h)) else none

def readRun? (args : List String) : Option Command := do
  let a ← Arguments.read [budgetSwitch, interleaveSwitch, jsonSwitch] true args
  let config ← readConfig? (a.lastValue? budgetSwitch)
  if a.operands.isEmpty then none
  else some (.run a.operands config (a.isSet interleaveSwitch) (a.isSet jsonSwitch))

def readCheck? (args : List String) : Option Command := do
  let a ← Arguments.read [jsonSwitch] true args
  if a.operands.isEmpty then none else some (.check a.operands (a.isSet jsonSwitch))

def readDisasm? (args : List String) : Option Command := do
  let a ← Arguments.read [] true args
  match a.operands with
  | [file] => some (.disasm file)
  | _ => none

def readCommand? (name : String) (args : List String) : Option Command :=
  if name = "run" then readRun? args
  else if name = "check" then readCheck? args
  else if name = "disasm" then readDisasm? args
  else none

/-- Reads the arguments of the program. Its own option stands before the name of the command. -/
def Invocation.read? (args : List String) : Option Invocation := do
  let a ← Arguments.read [verboseSwitch] false args
  match a.operands with
  | [] => none
  | name :: args => return ⟨a.isSet verboseSwitch, ← readCommand? name args⟩

end Command

end StackMachine
