import StackMachine.Process
import StackMachine.Proofs.Effects

/-!
# What one step of a process can do

Every result about runs rests on the six ways in which a step can end. They are listed once, by
`Process.StepCase`, with the condition under which each of them happens; no later proof opens
`Process.step` again. The conditions are told by `Instruction.execute`: that a step which raises
something leaves the memory and the sink as they were is no part of its definition, it is what
`Instruction.handle_eq_transact` says of the handlers.

* **`Process.step_of_error`**, **`Process.step_of_closed`**, **`Process.step_of_ok`**: a step told
  from the effect of its instruction.
* **`Process.step_cases`**: a step ends in one of the six ways.
* **`Process.step_onto`**, **`Process.own_step`**: on an open sink a step only adds text, and nothing
  that it does depends on what the sink holds already.
* **`Process.step_congr`**: on any sink, nothing but whether it is open makes a difference.
* **`Process.step_withProgram`**: nothing that a step does depends on the rest of the program.
-/

namespace StackMachine

/-- What was done on the empty sink, done on `out`: its text goes to the end of `out`. -/
def Run.onto (r : Run) (out : Sink) : Run :=
  { r with sink := out.append r.sink.text }

/-- The process with another program in place of its own. -/
def Process.withProgram (prog : Program) (p : Process) : Process :=
  { p with program := prog }

/-- The same run of a process with another program. -/
def Run.withProgram (prog : Program) (r : Run) : Run :=
  { r with process := r.process.withProgram prog }

/-- The ends that a process on an open sink can come to by itself: the sink takes its text, and a
refused slice is a matter of the machine. -/
def Outcome.Own : Outcome → Prop
  | .crashed .sinkClosed | .failed (.sliceLimit _) => False
  | _ => True

/-- The crash of an outcome, as it is asked for by the machine. -/
theorem Outcome.crash?_eq_some {outcome : Outcome} {c : Crash} :
    outcome.crash? = some c ↔ outcome = .crashed c := by
  cases outcome <;> simp [crash?]

namespace Process

/-! ## A step and the effect of its instruction

The stage on which a handler acts is put together from the process and its sink, and afterwards it is
taken apart again. Since handlers are transactions, nothing is different about the parts if the
instruction has raised something. -/

section
variable {p : Process} {i : Instruction}

/-- Behind the last instruction a process fails, and names the place it has come to. -/
theorem step_of_none (hi : p.program[p.ip]? = none) (out : Sink) :
    p.step out = ⟨p.fail, out, .failed (.endOfProgram p.ip)⟩ := by
  simp only [step, hi]

/-- An instruction without an effect raises what it raises, whatever the sink is like: its effect
is computed before anything is written. -/
theorem step_of_error {e : Exception} (hi : p.program[p.ip]? = some i)
    (he : i.execute p.memory = .error e) (out : Sink) :
    p.step out = ⟨p.fail, out, e.outcome p.ip i⟩ := by
  simp only [step, hi, Instruction.handle_eq_transact, Instruction.transact, he]
  rfl

/-- A closed sink refuses an instruction that writes. The process fails and keeps its memory,
although the effect of the instruction was there already. -/
theorem step_of_closed {effect : Effect} (hi : p.program[p.ip]? = some i)
    (he : i.execute p.memory = .ok effect) {out : Sink} (hout : out.isOpen = false)
    (hw : effect.writes ≠ []) : p.step out = ⟨p.fail, out, .crashed .sinkClosed⟩ := by
  simp only [step, hi, Instruction.handle_eq_transact, Instruction.transact, he,
    Sink.writeAll?_of_closed hout hw]
  rfl

/-- An instruction whose text can be written is applied, and only `exit` ends the process. This is
the one case in which memory, position and sink change. -/
theorem step_of_ok {effect : Effect} (hi : p.program[p.ip]? = some i)
    (he : i.execute p.memory = .ok effect) {out : Sink}
    (hout : out.isOpen = true ∨ effect.writes = []) :
    p.step out = ⟨p.advance effect.memory (if i.isExit then .exited else .running),
      out.append (String.join effect.writes), if i.isExit then .exited else .running⟩ := by
  simp only [step, hi, Instruction.handle_eq_transact, Instruction.transact, he,
    Sink.writeAll?_of_takes hout]
  cases i.isExit <;> rfl

end

/-! ## The six ways in which a step can end -/

/-- How the next step of `p` ends, why, and what it leaves. Only an instruction that can be executed
and whose text can be written changes more than the status. -/
inductive StepCase (p : Process) (out : Sink) : Prop where
  | endOfProgram (hi : p.program[p.ip]? = none)
      (hr : p.step out = ⟨p.fail, out, .failed (.endOfProgram p.ip)⟩)
  | fault (i : Instruction) (cause : Fault) (hi : p.program[p.ip]? = some i)
      (he : i.execute p.memory = .error (.fault cause))
      (hr : p.step out = ⟨p.fail, out, .failed (.fault p.ip i cause)⟩)
  | crash (i : Instruction) (c : Crash) (hi : p.program[p.ip]? = some i)
      (he : i.execute p.memory = .error (.crash c))
      (hr : p.step out = ⟨p.fail, out, .crashed c⟩)
  | sinkClosed (i : Instruction) (effect : Effect) (hi : p.program[p.ip]? = some i)
      (he : i.execute p.memory = .ok effect) (hout : out.isOpen = false) (hw : effect.writes ≠ [])
      (hr : p.step out = ⟨p.fail, out, .crashed .sinkClosed⟩)
  | exited (i : Instruction) (effect : Effect) (hi : p.program[p.ip]? = some i)
      (he : i.execute p.memory = .ok effect) (hout : out.isOpen = true ∨ effect.writes = [])
      (hx : i.isExit = true)
      (hr : p.step out = ⟨p.advance effect.memory .exited, out.append (String.join effect.writes),
        .exited⟩)
  | running (i : Instruction) (effect : Effect) (hi : p.program[p.ip]? = some i)
      (he : i.execute p.memory = .ok effect) (hout : out.isOpen = true ∨ effect.writes = [])
      (hx : i.isExit = false)
      (hr : p.step out = ⟨p.advance effect.memory .running, out.append (String.join effect.writes),
        .running⟩)

/-- **The inversion of a step.** Whatever is to be known of a step is read off these cases, one
for each way in which it can end; nothing below opens `step` again. -/
theorem step_cases (p : Process) (out : Sink) : StepCase p out := by
  -- in the order of the checks: is there an instruction, can it be executed, can its text be
  -- written, is it the exit
  cases hi : p.program[p.ip]? with
  | none => exact .endOfProgram hi (step_of_none hi out)
  | some i =>
    cases he : i.execute p.memory with
    | error e =>
      cases e with
      | fault cause => exact .fault i cause hi he (step_of_error hi he out)
      | crash c => exact .crash i c hi he (step_of_error hi he out)
    | ok effect =>
      by_cases hout : out.isOpen = true ∨ effect.writes = []
      · -- the text can be written, so the instruction is applied
        have hr := step_of_ok hi he hout
        cases hx : i.isExit with
        | true =>
          rw [hx] at hr
          exact .exited i effect hi he hout hx hr
        | false =>
          rw [hx] at hr
          exact .running i effect hi he hout hx hr
      · -- there is text, and the sink is closed
        have hclosed : out.isOpen = false := by simpa using fun h => hout (Or.inl h)
        have hne : effect.writes ≠ [] := fun h => hout (Or.inr h)
        exact .sinkClosed i effect hi he hclosed hne (step_of_closed hi he hclosed hne)

/-- A step after which the process goes on has executed an instruction. It has moved on by one,
and its text is at the end of the sink. -/
theorem step_running {p : Process} {out : Sink} (h : (p.step out).outcome = .running) :
    ∃ i effect, p.program[p.ip]? = some i ∧ i.execute p.memory = .ok effect ∧ i.isExit = false
      ∧ p.step out = ⟨p.advance effect.memory .running, out.append (String.join effect.writes),
        .running⟩ := by
  cases step_cases p out with
  | endOfProgram hi hr => rw [hr] at h; cases h
  | fault i cause hi he hr => rw [hr] at h; cases h
  | crash i c hi he hr => rw [hr] at h; cases h
  | sinkClosed i effect hi he hout hw hr => rw [hr] at h; cases h
  | exited i effect hi he hout hx hr => rw [hr] at h; cases h
  | running i effect hi he hout hx hr => exact ⟨i, effect, hi, he, hx, hr⟩

/-- A step writes to its sink, and neither opens nor closes it. So a run that starts on an open
sink finds it open all the way. -/
theorem isOpen_step (p : Process) (out : Sink) : (p.step out).sink.isOpen = out.isOpen := by
  cases step_cases p out with
  | endOfProgram hi hr => rw [hr]
  | fault i cause hi he hr => rw [hr]
  | crash i c hi he hr => rw [hr]
  | sinkClosed i effect hi he hout hw hr => rw [hr]
  | exited i effect hi he hout hx hr => rw [hr]; rfl
  | running i effect hi he hout hx hr => rw [hr]; rfl

/-! ## Steps on an open sink

Whether a piece can be written depends on the sink being open, never on its text. So on an open sink
a step does what it does on the empty sink, and its text goes behind the text that is there. This
lets a process be followed by itself while others write to the same sink. -/

/-- **The frame of a step.** What is in an open sink already makes no difference; the step adds to
it what it would have written to an empty one. -/
theorem step_onto (p : Process) {out : Sink} (ho : out.isOpen = true) :
    p.step out = (p.step .empty).onto out := by
  cases hi : p.program[p.ip]? with
  | none => simp [step_of_none hi, Run.onto]
  | some i =>
    cases he : i.execute p.memory with
    | error e => simp [step_of_error hi he, Run.onto]
    | ok effect =>
      rw [step_of_ok hi he (Or.inl ho), step_of_ok hi he (Or.inl Sink.isOpen_empty)]
      simp [Run.onto]

/-- A step on an open sink comes to an end of the process's own: the sink does not refuse its
text, and a limit on slices is none of its business. -/
theorem own_step (p : Process) {out : Sink} (ho : out.isOpen = true) :
    (p.step out).outcome.Own := by
  cases step_cases p out with
  | endOfProgram hi hr => rw [hr]; trivial
  | fault i cause hi he hr => rw [hr]; trivial
  | crash i c hi he hr =>
    -- an instruction by itself does not find the sink closed
    obtain ⟨conditions, rfl, -⟩ := Instruction.execute_crash he
    rw [hr]
    trivial
  | sinkClosed i effect hi he hout hw hr => rw [ho] at hout; cases hout
  | exited i effect hi he hout hx hr => rw [hr]; trivial
  | running i effect hi he hout hx hr => rw [hr]; trivial

/-! ## Steps on another sink -/

/-- Of a sink, only whether it is open makes a difference to the process. Its text is never read.
-/
theorem step_congr (p : Process) {out out' : Sink} (h : out'.isOpen = out.isOpen) :
    (p.step out').process = (p.step out).process ∧ (p.step out').outcome = (p.step out).outcome := by
  -- a step asks of the sink only whether it is open
  cases step_cases p out with
  | endOfProgram hi hr =>
    rw [hr, step_of_none hi]
    exact ⟨rfl, rfl⟩
  | fault i cause hi he hr =>
    rw [hr, step_of_error hi he]
    exact ⟨rfl, rfl⟩
  | crash i c hi he hr =>
    rw [hr, step_of_error hi he]
    exact ⟨rfl, rfl⟩
  | sinkClosed i effect hi he hout hw hr =>
    rw [hr, step_of_closed hi he (h.trans hout) hw]
    exact ⟨rfl, rfl⟩
  | exited i effect hi he hout hx hr =>
    rw [hr, step_of_ok hi he (h ▸ hout), hx]
    exact ⟨rfl, rfl⟩
  | running i effect hi he hout hx hr =>
    rw [hr, step_of_ok hi he (h ▸ hout), hx]
    exact ⟨rfl, rfl⟩

/-! ## Steps of another program -/

/-- A step looks at no instruction but the current one. Two programs that agree there can be
exchanged, which is what inserting instructions into a program rests on. -/
theorem step_withProgram {prog : Program} {p : Process} (h : prog[p.ip]? = p.program[p.ip]?)
    (out : Sink) : (p.withProgram prog).step out = (p.step out).withProgram prog := by
  -- with the same instruction, both sides let it act on the same stage
  simp only [step, withProgram, h]
  split
  · rfl
  · split <;> rfl

end Process

end StackMachine
