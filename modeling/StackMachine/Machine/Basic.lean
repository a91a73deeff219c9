import StackMachine.Machine.Config
import StackMachine.Process

/-!
# The machine

A machine holds a table of processes and runs them in slices of a fixed number of instructions.
A process that exits, fails or has used up its slices leaves the table with one result. Ids are
given out in ascending order and never again.
-/

namespace StackMachine

/-- The sinks of a machine: one for all processes, those with a name, and a private one for each
process that wants it. -/
inductive SinkName where
  | shared
  | named (name : String)
  | own (pid : Nat)
deriving DecidableEq, Repr

/-- The sinks that have been used so far, the latest first. All others are open and empty. -/
structure Sinks where
  used : List (SinkName × Sink) := []
deriving DecidableEq, Repr

namespace Sinks

def get (s : Sinks) (name : SinkName) : Sink :=
  match s.used.find? (·.1 = name) with
  | some (_, sink) => sink
  | none => .empty

def set (s : Sinks) (name : SinkName) (sink : Sink) : Sinks :=
  ⟨(name, sink) :: s.used.filter (·.1 ≠ name)⟩

/-- The sinks with a name of their own. -/
def named (s : Sinks) : List (String × Sink) :=
  s.used.filterMap fun (name, sink) =>
    match name with
    | .named text => some (text, sink)
    | _ => none

end Sinks

/-- A process in the table. -/
structure Entry where
  pid : Nat
  process : Process
  slices : Nat
  sink : SinkName
deriving DecidableEq

/-- What became of a process. -/
structure Result where
  pid : Nat
  steps : Nat
  slices : Nat
  failure : Option Failure
deriving DecidableEq

def Result.success (r : Result) : Bool :=
  r.failure.isNone

/-- An entry and its sink after a slice. -/
structure Slice where
  entry : Entry
  sink : Sink
  outcome : Outcome
deriving DecidableEq

/-- The result of a process whose last slice this was. -/
def Slice.result (s : Slice) : Result :=
  ⟨s.entry.pid, s.entry.process.steps, s.entry.slices, s.outcome.failure?⟩

namespace Entry

/-- Gives a process one slice, or refuses it when it has had them all. -/
def slice (e : Entry) (config : Config) (out : Sink) : Slice :=
  match config.reachedLimit? e.slices with
  | some limit => ⟨e, out, .failed (.sliceLimit limit)⟩
  | none =>
    let r := e.process.run out config.stepBudget
    ⟨{ e with process := r.process, slices := e.slices + 1 }, r.sink, r.outcome⟩

theorem remaining_slice {e : Entry} {config : Config} {out : Sink}
    (h : (e.slice config out).outcome = .running) :
    (e.slice config out).entry.process.remaining < e.process.remaining := by
  unfold slice at h ⊢
  split at h
  · simp at h
  · have hr := Process.remaining_run h
    simp only
    omega

/-- Slices until the process is no longer running. -/
def runToEnd (e : Entry) (config : Config) (out : Sink) : Slice :=
  let s := e.slice config out
  if s.outcome = .running then s.entry.runToEnd config s.sink else s
termination_by e.process.remaining
decreasing_by exact remaining_slice ‹_›

end Entry

/-- One turn of all processes: those still in the table, the sinks, and the results of the others
in the order in which they ended. A crash takes its process out of the table and ends the round
early. -/
structure Round where
  table : List Entry
  sinks : Sinks
  finished : List Result
  crash : Option Crash
deriving DecidableEq

namespace Round

def keep (e : Entry) (r : Round) : Round :=
  { r with table := e :: r.table }

def finish (result : Result) (r : Round) : Round :=
  { r with finished := result :: r.finished }

end Round

/-- Gives each process one slice, in order. -/
def runRound (config : Config) : List Entry → Sinks → Round
  | [], sinks => ⟨[], sinks, [], none⟩
  | e :: es, sinks =>
    let s := e.slice config (sinks.get e.sink)
    let sinks := sinks.set e.sink s.sink
    match s.outcome with
    | .running => (runRound config es sinks).keep s.entry
    -- the process is gone, and those behind it stay without a turn
    | .crashed c => ⟨es, sinks, [], some c⟩
    | _ => (runRound config es sinks).finish s.result

/-- The instructions that the processes of a table have before them, each counted once more. -/
def workload (table : List Entry) : Nat :=
  table.foldr (fun e rest => e.process.remaining + 1 + rest) 0

theorem workload_runRound_le (config : Config) (table : List Entry) (sinks : Sinks) :
    workload (runRound config table sinks).table ≤ workload table := by
  induction table generalizing sinks with
  | nil => exact Nat.le_refl _
  | cons e es ih =>
    simp only [runRound]
    split
    · next hs =>
      have h₁ := Entry.remaining_slice hs
      have h₂ := ih (sinks.set e.sink (e.slice config (sinks.get e.sink)).sink)
      simp only [workload, Round.keep, List.foldr_cons] at h₂ ⊢
      omega
    · simp only [workload, List.foldr_cons]
      omega
    · have h₂ := ih (sinks.set e.sink (e.slice config (sinks.get e.sink)).sink)
      simp only [workload, Round.finish, List.foldr_cons] at h₂ ⊢
      omega

theorem workload_runRound_lt (config : Config) (e : Entry) (es : List Entry) (sinks : Sinks) :
    workload (runRound config (e :: es) sinks).table < workload (e :: es) := by
  simp only [runRound]
  have h₂ := workload_runRound_le config es
    (sinks.set e.sink (e.slice config (sinks.get e.sink)).sink)
  split
  · next hs =>
    have h₁ := Entry.remaining_slice hs
    simp only [workload, Round.keep, List.foldr_cons] at h₂ ⊢
    omega
  · simp only [workload, List.foldr_cons]
    omega
  · simp only [workload, Round.finish, List.foldr_cons] at h₂ ⊢
    omega

/-- Rounds until the table is empty or a process crashes. -/
def runRounds (config : Config) : List Entry → Sinks → Round
  | [], sinks => ⟨[], sinks, [], none⟩
  | e :: es, sinks =>
    let r := runRound config (e :: es) sinks
    if r.crash.isSome then r
    else
      let rest := runRounds config r.table r.sinks
      { rest with finished := r.finished ++ rest.finished }
termination_by table => workload table
decreasing_by exact workload_runRound_lt ..

structure Machine where
  config : Config
  lastPid : Nat
  /-- The loaded processes in ascending order of their ids. -/
  table : List Entry
  sinks : Sinks
deriving DecidableEq

namespace Machine

inductive Error where
  | unknownProcess (pid : Int)
  | crashed (c : Crash)
deriving DecidableEq, Repr

def Error.message : Error → String
  | .unknownProcess pid => "unknown process id: " ++ String.ofList (Kind.intText pid)
  | .crashed c => c.message

def start (config : Config) : Machine :=
  ⟨config, 0, [], {}⟩

def pids (m : Machine) : List Nat :=
  m.table.map (·.pid)

def find? (m : Machine) (pid : Int) : Option Entry :=
  m.table.find? (·.pid = pid)

def nextPid (m : Machine) : Nat :=
  m.lastPid + 1

/-- Puts a program into the table under the next id. -/
def load (m : Machine) (p : Program) (sink : SinkName) : Machine :=
  { m with
    lastPid := m.nextPid
    table := m.table ++ [⟨m.nextPid, p.start, 0, sink⟩] }

def setSink (m : Machine) (name : SinkName) (sink : Sink) : Machine :=
  { m with sinks := m.sinks.set name sink }

def remove (m : Machine) (pid : Nat) : Machine :=
  { m with table := m.table.filter (·.pid ≠ pid) }

def replace (m : Machine) (e : Entry) : Machine :=
  { m with table := m.table.map fun old => if old.pid = e.pid then e else old }

/-- Runs one process to its end. It leaves the table however it ends. -/
def run (m : Machine) (pid : Int) : Machine × Except Error Result :=
  match m.find? pid with
  | none => (m, .error (.unknownProcess pid))
  | some e =>
    let s := e.runToEnd m.config (m.sinks.get e.sink)
    -- the process leaves the table whatever comes of it
    let m := (m.remove e.pid).setSink e.sink s.sink
    (m, match s.outcome.crash? with
      | some c => .error (.crashed c)
      | none => .ok s.result)

/-- Runs all processes in turns until none is left. The results come in the order in which the
processes ended; a crash loses them. -/
def runAll (m : Machine) : Machine × Except Error (List Result) :=
  let r := runRounds m.config m.table m.sinks
  let m := { m with table := r.table, sinks := r.sinks }
  (m, match r.crash with
    | some c => .error (.crashed c)
    | none => .ok r.finished)

/-- Runs a process in the table directly: this counts no slice, and the process stays. -/
def stepProcess (m : Machine) (pid : Int) (budget : Int) : Machine × Except Error Outcome :=
  match m.find? pid with
  | none => (m, .error (.unknownProcess pid))
  | some e =>
    let r := e.process.run (m.sinks.get e.sink) budget
    ((m.replace { e with process := r.process }).setSink e.sink r.sink, .ok r.outcome)

end Machine

/-- Runs a program as the only process of a fresh machine, and gives its result and its text. -/
def Program.runAlone (p : Program) (config : Config) : Result × String :=
  let s := Entry.runToEnd ⟨1, p.start, 0, .shared⟩ config .empty
  (s.result, s.sink.text)

end StackMachine
