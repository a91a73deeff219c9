import StackMachine.Instruction
import StackMachine.Text.Lines
import StackMachine.Text.Utf8
import StackMachine.Value.Literal

/-!
# Assembly

Source text becomes a program, one instruction per line. A semicolon starts a comment, tabs count
as spaces, blank lines are skipped. The first line that is no instruction rejects the whole
source. `disassemble` writes a program back in a normal form.
-/

namespace StackMachine

namespace Assembly

open Text

/-- A line without its comment, its tabs turned into spaces, and without blanks at its ends. -/
def cleanLine (line : List Char) : List Char :=
  trim ((line.takeWhile (· ≠ ';')).map fun c => if c = '\t' then ' ' else c)

inductive LineError where
  | unknownOpcode (name : List Char)
  | unexpectedOperand (op : Opcode) (text : List Char)
  | operand (e : OperandError)
  | literal (e : Value.LiteralError)
  | malformedIndex (text : List Char)
deriving DecidableEq

def LineError.message : LineError → String
  | .unknownOpcode name => "unknown opcode: " ++ quoted name
  | .unexpectedOperand op text => s!"{op.name} takes no operand, got " ++ quoted text
  | .operand e => e.message
  | .literal e => e.message
  | .malformedIndex text => "malformed register index: " ++ quoted text

/-- A register index is a row of digits or an integer literal. -/
def readIndex (text : List Char) : Except (ReadError LineError) Int :=
  match spanDigits text with
  | (d :: ds, []) => Numeral.intOfDigits false (d :: ds)
  | _ =>
    if text.contains '(' then
      match Value.parse text with
      | .error e => .error (e.map .literal)
      | .ok v =>
        match v.int? with
        | some i => .ok i
        | none => .error (.invalid (.malformedIndex text))
    else .error (.invalid (.malformedIndex text))

def readOperand (op : Opcode) (text : List Char) :
    Except (ReadError LineError) (Option Operand) :=
  if text.isEmpty then .ok none
  else if op.takesValue then (Value.parse text).mapError (·.map .literal) |>.map (some <| .value ·)
  else if op.takesRegister then (readIndex text).map (some <| .index ·)
  else .error (.invalid (.unexpectedOperand op text))

/-- Reads one line. The opcode, in either case, ends at the first space; the rest of the line is
its operand. -/
def readInstruction (line : List Char) : Except (ReadError LineError) Instruction :=
  let line := trim line
  let name := line.takeWhile (· ≠ ' ')
  let rest := trim (line.drop (name.length + 1))
  match Opcode.ofName? (name.map Char.toLower) with
  | none => .error (.invalid (.unknownOpcode name))
  | some op => do
    let operand ← readOperand op rest
    (Instruction.make op operand).mapError (.invalid <| .operand ·)

inductive SourceFault where
  | line (e : LineError)
  | encoding (reason : Utf8.Reason)
deriving DecidableEq

/-- What is wrong with a source, and on which line, counted from one. -/
structure SourceError where
  line : Nat
  fault : SourceFault
deriving DecidableEq

def SourceFault.message : SourceFault → String
  | .line e => e.message
  | .encoding reason => s!"source is not valid UTF-8: {reason.message}"

def SourceError.message (e : SourceError) : String :=
  s!"line {e.line}: {e.fault.message}"

/-- Assembles lines of which the first has the given number. -/
def assembleLines : Nat → List (List Char) → Except (ReadError SourceError) Program
  | _, [] => .ok []
  | n, line :: lines =>
    let cleaned := cleanLine line
    if cleaned.isEmpty then assembleLines (n + 1) lines
    else do
      let i ← (readInstruction cleaned).mapError (·.map fun e => ⟨n, .line e⟩)
      return i :: (← assembleLines (n + 1) lines)

def assembleChars (source : List Char) : Except (ReadError SourceError) Program :=
  assembleLines 1 (splitLines source)

/-- The line of a byte: one more than the number of line feeds before it. -/
def lineOfByte (bytes : List UInt8) (offset : Nat) : Nat :=
  1 + (bytes.take offset).count 0x0A

end Assembly

open Assembly

abbrev AssemblyError := ReadError Assembly.SourceError

def assemble (source : String) : Except AssemblyError Program :=
  assembleChars source.toList

/-- Assembles the contents of a file, which must be UTF-8. -/
def assembleBytes (bytes : List UInt8) : Except AssemblyError Program :=
  match Text.Utf8.decode bytes with
  | .ok source => assembleChars source
  | .error e => .error (.invalid ⟨lineOfByte bytes e.offset, .encoding e.reason⟩)

/-- A program in normal form, one instruction on each line. -/
def disassemble (p : Program) : String :=
  "\n".intercalate (p.map Instruction.text)

end StackMachine
