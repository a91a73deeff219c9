import StackMachine.Proofs.Slicing

/-!
# Processes on open sinks

As long as its sink is open, a process does not depend on what the sink holds. `Process.step_onto`
says so of one step; here it is carried to runs. What a process does among others can then be told
from what it does on an empty sink of its own.

* **`Process.runSteps_onto`**, **`Process.run_onto`**: the text of a run goes behind the text that is
  there, and nothing else changes.
* **`Process.own_runSteps`**, **`Process.own_run`**: an open sink never stops a run.
-/

namespace StackMachine

/-- Text that was put at the end of a sink, and then behind another text, is behind both. -/
theorem Run.onto_onto (r : Run) (mid out : Sink) :
    (r.onto mid).onto out = r.onto (out.append mid.text) := by
  simp [onto]

namespace Process

/-- **The frame of a run.** The induction is on the steps. The first one adds its text to the
sink, and the others start from an open sink on both sides, one of which holds more. -/
theorem runSteps_onto (n : Nat) (p : Process) {out : Sink} (ho : out.isOpen = true) :
    runSteps n p out = (runSteps n p .empty).onto out := by
  induction n generalizing p out with
  | zero => simp [runSteps_zero, Run.onto]
  | succ n ih =>
    rw [runSteps_succ, runSteps_succ, step_onto p ho]
    by_cases hr : (p.step .empty).outcome = .running
    · -- the sink after the first step is open too, so the steps after it add to what it has written
      have hmid : (p.step .empty).sink.isOpen = true := isOpen_step p .empty
      rw [Run.resume_of_running hr, Run.resume_of_running (by exact hr), ih _ hmid, Run.onto_onto]
      exact ih _ ho
    · rw [Run.resume_of_ended hr, Run.resume_of_ended (by exact hr)]

/-- The same of calls. A refused call writes nothing, and then there is nothing to be added. -/
theorem run_onto (p : Process) {out : Sink} (ho : out.isOpen = true) (budget : Int) :
    p.run out budget = (p.run .empty budget).onto out := by
  rcases run_cases p budget with ⟨answer, -, -, hr⟩ | ⟨-, -, hr⟩
  · rw [hr, hr]
    simp [Run.onto]
  · rw [hr, hr]
    exact runSteps_onto _ p ho

/-- On an open sink the steps come to an end of the process's own, or they are used up and the
process is running. -/
theorem own_runSteps (n : Nat) (p : Process) {out : Sink} (ho : out.isOpen = true) :
    (runSteps n p out).outcome.Own := by
  rcases runSteps_invariant (P := fun _ out => out.isOpen = true) (Q := fun r => r.outcome.Own)
    (fun p out ho _ => (isOpen_step p out).trans ho) (fun p _ ho _ => own_step p ho) n ho
    with ⟨hr, -⟩ | ⟨-, hown⟩
  · -- all steps are used up: to be still running is no one's end
    rw [hr]
    trivial
  · exact hown

/-- A call on an open sink has an answer of its own in all cases; what it is refused with is one
too. -/
theorem own_run (p : Process) {out : Sink} (ho : out.isOpen = true) (budget : Int) :
    (p.run out budget).outcome.Own := by
  rcases run_cases p budget with ⟨answer, -, hown, hr⟩ | ⟨-, -, hr⟩
  · rw [hr]
    exact hown
  · rw [hr]
    exact own_runSteps _ p ho

end Process

end StackMachine
