import StackMachine.Handler

/-!
# Processes

A process is a program with its private state. `Instruction.handle` says what an instruction does,
action by action, to the memory, the sink and the status; `Process.step` lets the current instruction
act and fails the process if it raises something; `Process.run` takes steps until its budget is used
up. A process that is still running after a run has used up its whole budget (`remaining_runSteps`),
so repeated runs come to an end.
-/

namespace StackMachine

structure Process where
  program : Program
  memory : Memory
  ip : Nat
  steps : Nat
  status : Status
deriving DecidableEq

/-- The process that has executed nothing yet. -/
def Program.start (p : Program) : Process :=
  ⟨p, .empty, 0, 0, .running⟩

/-- Why a run of a process ends in an error. -/
inductive Failure where
  | fault (ip : Nat) (i : Instruction) (cause : Fault)
  | endOfProgram (ip : Nat)
  | notResumable
  | budgetNotPositive (budget : Int)
  | sliceLimit (slices : Nat)
deriving DecidableEq

namespace Failure

def kind : Failure → String
  | .fault _ _ cause => cause.kind
  | _ => "ProtocolError"

/-- The position of the failing instruction, if there is one. -/
def ip? : Failure → Option Nat
  | .fault ip .. => some ip
  | .endOfProgram ip => some ip
  | _ => none

def message : Failure → String
  | .fault ip i cause => s!"{cause.message} (at {ip}: {i.text})"
  | .endOfProgram ip => s!"reached end of program without exiting (at {ip})"
  | .notResumable => "process has failed and cannot be resumed"
  | .budgetNotPositive budget =>
    "step budget must be positive, got " ++ String.ofList (Kind.intText budget)
  | .sliceLimit slices => s!"process exceeded {slices} slices without exiting"

end Failure

/-- How a run ends. An error that is none of the machine's own is no failure of the program and is told
apart. -/
inductive Outcome where
  | running
  | exited
  | failed (e : Failure)
  | crashed (c : Crash)
deriving DecidableEq

def Outcome.failure? : Outcome → Option Failure
  | .failed e => some e
  | _ => none

def Outcome.crash? : Outcome → Option Crash
  | .crashed c => some c
  | _ => none

/-- How a step ends whose instruction raised something. -/
def Exception.outcome (ip : Nat) (i : Instruction) : Exception → Outcome
  | .fault cause => .failed (.fault ip i cause)
  | .crash c => .crashed c

/-- A process and its sink after a run. -/
structure Run where
  process : Process
  sink : Sink
  outcome : Outcome
deriving DecidableEq

namespace Process

def fail (p : Process) : Process :=
  { p with status := .failed }

/-- The process after an instruction. -/
def advance (p : Process) (memory : Memory) (status : Status) : Process :=
  ⟨p.program, memory, p.ip + 1, p.steps + 1, status⟩

/-- Lets the current instruction of a running process act. If it raises something the process fails and
stays at the instruction, with whatever the actions before have left. -/
def step (p : Process) (out : Sink) : Run :=
  match p.program[p.ip]? with
  | none => ⟨p.fail, out, .failed (.endOfProgram p.ip)⟩
  | some i =>
    match i.handle ⟨p.memory, .running, out⟩ with
    -- what the handler did before it raised is kept
    | .error e stage =>
      ⟨{ p.fail with memory := stage.memory }, stage.sink, e.outcome p.ip i⟩
    | .ok _ stage =>
      ⟨p.advance stage.memory stage.status, stage.sink,
        if stage.status = .exited then .exited else .running⟩

/-- Takes up to the given number of steps. -/
def runSteps : Nat → Process → Sink → Run
  | 0, p, out => ⟨p, out, .running⟩
  | n + 1, p, out =>
    let r := p.step out
    match r.outcome with
    | .running => runSteps n r.process r.sink
    | _ => r

/-- How a call ends whose budget is not positive. The budget is part of the message, which cannot be
written if it has too many digits. -/
def refusal (budget : Int) : Outcome :=
  if digitLimit < digitCount budget.natAbs then .crashed .unwritable
  else .failed (.budgetNotPositive budget)

/-- Runs a process for at most `budget` instructions. -/
def run (p : Process) (out : Sink) (budget : Int) : Run :=
  if budget ≤ 0 then ⟨p, out, refusal budget⟩
  else
    -- the budget is judged first, also for a process that has ended
    match p.status with
    | .exited => ⟨p, out, .exited⟩
    | .failed => ⟨p, out, .failed .notResumable⟩
    | .running => runSteps budget.toNat p out

/-- The number of instructions from the current one to the end of the program. -/
def remaining (p : Process) : Nat :=
  p.program.length - p.ip

theorem remaining_step {p : Process} {out : Sink} (h : (p.step out).outcome = .running) :
    (p.step out).process.remaining + 1 = p.remaining := by
  unfold step at h ⊢
  split at h
  · simp at h
  · next i hi =>
    have hlt : p.ip < p.program.length := (List.getElem?_eq_some_iff.mp hi).1
    split at h
    · next e stage he =>
      cases e <;> simp [Exception.outcome] at h
    · simp only [remaining, advance]
      omega

theorem remaining_runSteps {n : Nat} {p : Process} {out : Sink}
    (h : (runSteps n p out).outcome = .running) :
    (runSteps n p out).process.remaining + n = p.remaining := by
  induction n generalizing p out with
  | zero => rfl
  | succ n ih =>
    simp only [runSteps] at h ⊢
    split at h
    · next hs =>
      have h₁ := ih h
      have h₂ := remaining_step hs
      omega
    · next hs => exact absurd h hs

/-- A run that leaves the process running has used up its budget. -/
theorem remaining_run {p : Process} {out : Sink} {budget : Int}
    (h : (p.run out budget).outcome = .running) :
    (p.run out budget).process.remaining + budget.toNat = p.remaining ∧ 0 < budget := by
  unfold run at h ⊢
  split at h
  · simp only [refusal] at h
    split at h <;> simp at h
  · next hb =>
    split at h
    · simp at h
    · simp at h
    · next hs =>
      simp only [hb, if_false]
      exact ⟨remaining_runSteps h, by omega⟩

end Process

/-- What can be seen of a process from outside. -/
structure Snapshot where
  ip : Nat
  steps : Nat
  status : Status
  /-- The stack, bottom first. -/
  stack : List Value
  /-- The registers that hold a value, in order. -/
  registers : List (Register × Value)
deriving DecidableEq

def Process.snapshot (p : Process) : Snapshot where
  ip := p.ip
  steps := p.steps
  status := p.status
  stack := p.memory.stack.reverse
  registers := (List.finRange registerCount).filterMap fun r =>
    (p.memory.registers.get r).map (r, ·)

end StackMachine
