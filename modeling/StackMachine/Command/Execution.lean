import StackMachine.Command.Invocation
import StackMachine.Command.Report

/-!
# Execution of commands

A command reads its files, does its work and ends with an exit code and two texts. `commandLine`
is the whole program apart from its contact with the outside: the files are a function from names
to contents, and what is said to people passes a screen that leaves out control sequences.
-/

namespace StackMachine.Command

open Text (Screen)

/-- What a command has to say when it is done. -/
structure Output where
  exit : Nat
  stdout : String := ""
  stderr : String := ""
deriving DecidableEq, Repr

/-- How an invocation ends: with output, or because the arguments are wrong, or because a source
holds an integer too long to be read. -/
inductive Ending where
  | output (o : Output)
  | usageError
  | tooManyDigits (e : TooManyDigits)
deriving DecidableEq, Repr

structure SourceFile where
  name : String
  bytes : List UInt8
deriving DecidableEq

/-- The programs of the files up to the first that cannot be assembled, and that one. -/
structure Assembled where
  programs : List (String × Program)
  stopped : Option (String × AssemblyError)

def assembleFiles : List SourceFile → Assembled
  | [] => ⟨[], none⟩
  | f :: fs =>
    match assembleBytes f.bytes with
    | .error e => ⟨[], some (f.name, e)⟩
    | .ok p =>
      let rest := assembleFiles fs
      ⟨(f.name, p) :: rest.programs, rest.stopped⟩

/-- The lines of a log, which are written only if they are asked for. -/
def logText (verbose : Bool) (log : List String) : String :=
  if verbose then lines log else ""

/-- Ends a command whose source is wrong. -/
def rejected (screen : Screen) (log : String) (file : String) : AssemblyError → Ending
  | .tooManyDigits e => .tooManyDigits e
  | .invalid e => .output { exit := 1, stderr := log ++ messages screen [errorLine file e] }

/-! ### Running -/

/-- A machine with the programs loaded. Each writes to a sink of its own if their texts are to be
told apart. -/
def loadAll (separate : Bool) (m : Machine) : List (String × Program) → Machine
  | [] => m
  | (_, p) :: ps => loadAll separate (m.load p (if separate then .own m.nextPid else .shared)) ps

/-- Runs processes one after the other up to the first that fails. -/
def runInOrder (m : Machine) : List Nat → Machine × List Result
  | [] => (m, [])
  | pid :: pids =>
    match m.run pid with
    | (m, .error _) => (m, [])
    | (m, .ok r) =>
      -- a failed process is reported, those behind it are not run
      if r.success then
        let (m, rs) := runInOrder m pids
        (m, r :: rs)
      else (m, [r])

/-- Runs all processes of a machine in turns. -/
def runInTurns (m : Machine) : Machine × List Result :=
  match m.runAll with
  | (m, .error _) => (m, [])
  | (m, .ok rs) => (m, rs)

/-- The report on a result; the process with the id `n` runs the `n`-th file. -/
def report (files : List String) (m : Machine) (r : Result) : RunReport :=
  ⟨r, files.getD (r.pid - 1) "", (m.sinks.get (.own r.pid)).text⟩

def runPrograms (screen : Screen) (verbose : Bool) (programs : List (String × Program))
    (config : Config) (interleave json : Bool) : Output :=
  let loaded := loadAll json (.start config) programs
  let (m, results) := if interleave then runInTurns loaded else runInOrder loaded loaded.pids
  let reports := (results.mergeSort (·.pid ≤ ·.pid)).map (report (programs.map (·.1)) m)
  let log := logText verbose <|
    programs.map (logAssembled ·.2) ++ loaded.table.map logLoaded ++ results.flatMap logEnded
  { exit := if results.all (·.success) then 0 else 1
    stdout :=
      if json then lines [(Json.array (reports.map (·.json))).text]
      else (m.sinks.get .shared).text
    stderr := log ++ if json then "" else messages screen (reports.filterMap (·.errorLine?)) }

def executeRun (screen : Screen) (verbose : Bool) (files : List SourceFile) (config : Config)
    (interleave json : Bool) : Ending :=
  let assembled := assembleFiles files
  match assembled.stopped with
  | some (file, e) =>
    rejected screen (logText verbose (assembled.programs.map (logAssembled ·.2))) file e
  | none => .output (runPrograms screen verbose assembled.programs config interleave json)

/-! ### Checking -/

/-- The report on each file, with the programs of those that can be assembled. -/
def checkFiles : List SourceFile → Except TooManyDigits (List CheckReport × List Program)
  | [] => .ok ([], [])
  | f :: fs =>
    match assembleBytes f.bytes with
    | .error (.tooManyDigits e) => .error e
    | .error (.invalid e) => do
      let (reports, programs) ← checkFiles fs
      return (⟨f.name, .error e⟩ :: reports, programs)
    | .ok p => do
      let (reports, programs) ← checkFiles fs
      return (⟨f.name, .ok p.length⟩ :: reports, p :: programs)

def executeCheck (screen : Screen) (verbose : Bool) (files : List SourceFile) (json : Bool) :
    Ending :=
  match checkFiles files with
  | .error e => .tooManyDigits e
  | .ok (reports, programs) =>
    let log := logText verbose (programs.map logAssembled)
    let (good, bad) := reports.partition (·.valid)
    .output {
      exit := if bad.isEmpty then 0 else 1
      stdout :=
        if json then lines [(Json.array (reports.map (·.json))).text]
        else messages screen (good.map (·.line))
      stderr := log ++ if json then "" else messages screen (bad.map (·.line)) }

/-! ### Writing in normal form -/

def executeDisasm (screen : Screen) (verbose : Bool) (file : SourceFile) : Ending :=
  match assembleBytes file.bytes with
  | .error e => rejected screen "" file.name e
  | .ok p =>
    .output {
      exit := 0
      stdout := if p.isEmpty then "" else lines [disassemble p]
      stderr := logText verbose [logAssembled p] }

/-! ### The command line -/

def execute (screen : Screen) (invocation : Invocation) (files : List SourceFile) : Ending :=
  match invocation.command, files with
  | .run _ config interleave json, files =>
    executeRun screen invocation.verbose files config interleave json
  | .check _ json, files => executeCheck screen invocation.verbose files json
  | .disasm _, [file] => executeDisasm screen invocation.verbose file
  | .disasm _, _ => .usageError

/-- Executes the command that the arguments give. `read` gives the contents of a file, or nothing
if there is no such file. -/
def commandLine (screen : Screen) (read : String → Option (List UInt8)) (args : List String) :
    Ending :=
  match Invocation.read? args with
  | none => .usageError
  | some invocation =>
    match invocation.command.files.mapM fun name => (read name).map (SourceFile.mk name) with
    | none => .usageError
    | some files => execute screen invocation files

end StackMachine.Command
