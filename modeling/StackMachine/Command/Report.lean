import StackMachine.Json.Text
import StackMachine.Machine.Basic
import StackMachine.Text.Plain

/-!
# Reports

What the commands say about results and sources, as lines of text and as JSON, and the log that
tells what happened on the way.
-/

namespace StackMachine.Command

def lines (ls : List String) : String :=
  String.join (ls.map (· ++ "\n"))

/-- Lines for a reader who is no terminal. -/
def messages (screen : Text.Screen) (ls : List String) : String :=
  lines (ls.map screen.sent)

/-! ### Log -/

def logAssembled (p : Program) : String :=
  s!"DEBUG stackvm.assembler: Assembled {p.length} instructions"

def logLoaded (e : Entry) : String :=
  s!"DEBUG stackvm.runtime.vm: Loaded process {e.pid} ({e.process.program.length} instructions)"

/-- A fault is logged where it happens, before its process leaves the table. -/
def logFault : Failure → List String
  | .fault ip i cause =>
    [s!"DEBUG stackvm.runtime.process: Process failed at {ip} ({i.text}): {cause.kind}"]
  | _ => []

def logEnded (r : Result) : List String :=
  match r.failure with
  | none =>
    [s!"DEBUG stackvm.runtime.vm: Process {r.pid} exited after {r.steps} steps, {r.slices} slices"]
  | some e =>
    logFault e
      ++ [s!"DEBUG stackvm.runtime.vm: Process {r.pid} failed after {r.steps} steps: {e.message}"]

/-! ### Results -/

/-- A result with the file of its program and the text the program wrote. -/
structure RunReport where
  result : Result
  file : String
  output : String
deriving DecidableEq

namespace RunReport

def json (r : RunReport) : Json :=
  .object [
    ("pid", .nat r.result.pid),
    ("success", .bool r.result.success),
    ("steps", .nat r.result.steps),
    ("slices", .nat r.result.slices),
    ("error", .orNull (fun e => .string e.message) r.result.failure),
    ("error_kind", .orNull (fun e => .string e.kind) r.result.failure),
    ("execution_time_ms", .nat 0),
    ("file", .string r.file),
    ("output", .string r.output)]

def errorLine? (r : RunReport) : Option String :=
  r.result.failure.map fun e => s!"Error: {r.file}: {e.kind}: {e.message}"

end RunReport

/-! ### Sources -/

/-- Whether a file can be assembled: its number of instructions, or what is wrong with it. -/
structure CheckReport where
  file : String
  verdict : Except Assembly.SourceError Nat

namespace CheckReport

def valid (r : CheckReport) : Bool :=
  r.verdict.isOk

def json (r : CheckReport) : Json :=
  .object <| ("file", .string r.file) ::
    match r.verdict with
    | .ok count => [("valid", .bool true), ("instruction_count", .nat count)]
    | .error e => [("valid", .bool false), ("line", .nat e.line), ("error", .string e.message)]

def line (r : CheckReport) : String :=
  match r.verdict with
  | .ok count => s!"✓ {r.file}: {count} instructions"
  | .error e => s!"✗ {r.file}: {e.message}"

end CheckReport

def errorLine (file : String) (e : Assembly.SourceError) : String :=
  s!"Error: {file}: {e.message}"

end StackMachine.Command
