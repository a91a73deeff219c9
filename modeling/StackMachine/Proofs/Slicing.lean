import StackMachine.Proofs.Step

/-!
# Slicing a run

A budget only says when control comes back. A run with the budget `a + b` is a run with the budget
`a` and, if that leaves the process running, a run with the budget `b` after it.

* **`Process.runSteps_add`**: the composition for the loop, from one step and the associativity of
  `Run.resume`.
* **`Process.runSteps_invariant`**: what the steps of the loop pass on to each other.
* **`Process.run_add`**: the composition for whole calls. A call looks at the status first, so it
  needs that a process which comes back running has the status to be resumed.
* **`Process.slicing_transparent`**: the headline, with the two cases of the first call apart.
-/

namespace StackMachine

/-! ## Going on after a run -/

/-- Goes on after a run that has left its process running; any other run is the end. -/
def Run.resume (r : Run) (next : Process → Sink → Run) : Run :=
  match r.outcome with
  | .running => next r.process r.sink
  | _ => r

namespace Run

/-- A run that has come back running is gone on with. -/
theorem resume_of_running {r : Run} (h : r.outcome = .running) (next : Process → Sink → Run) :
    r.resume next = next r.process r.sink := by
  simp [resume, h]

/-- After a run that has ended nothing is left to be done. -/
theorem resume_of_ended {r : Run} (h : r.outcome ≠ .running) (next : Process → Sink → Run) :
    r.resume next = r := by
  unfold resume
  split
  · next hr => exact absurd hr h
  · rfl

/-- It makes no difference where a sequence of runs is cut. With this law the loop composes, and
so do calls. -/
theorem resume_assoc (r : Run) (f g : Process → Sink → Run) :
    (r.resume f).resume g = r.resume fun p out => (f p out).resume g := by
  by_cases h : r.outcome = .running
  · rw [resume_of_running h, resume_of_running h]
  · rw [resume_of_ended h, resume_of_ended h, resume_of_ended h]

end Run

namespace Process

/-! ## The loop -/

theorem runSteps_zero (p : Process) (out : Sink) : runSteps 0 p out = ⟨p, out, .running⟩ := rfl

/-- One step and then the others, which do not take place if it was the last one. -/
theorem runSteps_succ (n : Nat) (p : Process) (out : Sink) :
    runSteps (n + 1) p out = (p.step out).resume (runSteps n) := rfl

/-- **The loop composes.** The induction is on the first number of steps; what remains is that
resuming is associative. -/
theorem runSteps_add (m n : Nat) (p : Process) (out : Sink) :
    runSteps (m + n) p out = (runSteps m p out).resume (runSteps n) := by
  induction m generalizing p out with
  | zero => rw [Nat.zero_add]; rfl
  | succ m ih =>
    -- the step in front is the same on both sides, and the rest moves behind it
    have hrest : runSteps (m + n) = fun q out => (runSteps m q out).resume (runSteps n) := by
      funext q out
      exact ih q out
    rw [Nat.add_right_comm, runSteps_succ, runSteps_succ, Run.resume_assoc, hrest]

/-- A process that goes on after a step still has the status that lets it go on. -/
theorem status_step {p : Process} {out : Sink} (h : (p.step out).outcome = .running) :
    (p.step out).process.status = .running := by
  obtain ⟨i, effect, -, -, -, hs⟩ := step_running h
  rw [hs]
  rfl

/-- **The invariant of the loop.** `P` is what the steps that come back running pass on, and `Q` what
the last step makes of it. -/
theorem runSteps_invariant {P : Process → Sink → Prop} {Q : Run → Prop}
    (hnext : ∀ p out, P p out → (p.step out).outcome = .running →
      P (p.step out).process (p.step out).sink)
    (hlast : ∀ p out, P p out → (p.step out).outcome ≠ .running → Q (p.step out))
    (n : Nat) {p : Process} {out : Sink} (h₀ : P p out) :
    ((runSteps n p out).outcome = .running
        ∧ P (runSteps n p out).process (runSteps n p out).sink)
      ∨ ((runSteps n p out).outcome ≠ .running ∧ Q (runSteps n p out)) := by
  induction n generalizing p out with
  | zero => exact Or.inl ⟨rfl, h₀⟩
  | succ n ih =>
    rw [runSteps_succ]
    by_cases hr : (p.step out).outcome = .running
    · rw [Run.resume_of_running hr]
      exact ih (hnext p out h₀ hr)
    · rw [Run.resume_of_ended hr]
      exact Or.inr ⟨hr, hlast p out h₀ hr⟩

/-- The same of any number of steps: the status is the invariant of the loop. -/
theorem status_runSteps {n : Nat} {p : Process} {out : Sink} (hp : p.status = .running)
    (h : (runSteps n p out).outcome = .running) : (runSteps n p out).process.status = .running := by
  rcases runSteps_invariant (P := fun q _ => q.status = .running) (Q := fun _ => True)
    (fun _ _ _ hr => status_step hr) (fun _ _ _ _ => trivial) n hp with ⟨-, hs⟩ | ⟨hne, -⟩
  · exact hs
  · exact absurd h hne

/-- What every step of a running process keeps, any number of steps keeps. The last step is
covered too, whichever way it ends. -/
theorem runSteps_induction {P : Process → Sink → Prop} {p : Process} {out : Sink}
    (hp : p.status = .running) (h₀ : P p out)
    (hstep : ∀ q out, q.status = .running → P q out → P (q.step out).process (q.step out).sink)
    (n : Nat) : P (runSteps n p out).process (runSteps n p out).sink := by
  -- the status is part of the invariant, since only running processes are known to keep `P`
  rcases runSteps_invariant (P := fun q out => q.status = .running ∧ P q out)
    (Q := fun r => P r.process r.sink) (fun q out h hr => ⟨status_step hr, hstep q out h.1 h.2⟩)
    (fun q out h _ => hstep q out h.1 h.2) n ⟨hp, h₀⟩ with ⟨-, -, h⟩ | ⟨-, h⟩
  · exact h
  · exact h

/-- A run that does not come back running has ended with a last step, taken from where a smaller
number of steps had led. -/
theorem exists_last_step {n : Nat} {p : Process} {out : Sink}
    (h : (runSteps n p out).outcome ≠ .running) :
    ∃ k q out', k < n ∧ runSteps k p out = ⟨q, out', .running⟩
      ∧ runSteps n p out = q.step out' := by
  induction n generalizing p out with
  | zero => exact absurd rfl h
  | succ n ih =>
    rw [runSteps_succ] at h ⊢
    by_cases hr : (p.step out).outcome = .running
    · rw [Run.resume_of_running hr] at h ⊢
      -- the rest has a last step, with the first one before it counted in
      obtain ⟨k, q, out', hk, hbefore, hlast⟩ := ih h
      refine ⟨k + 1, q, out', by omega, ?_, hlast⟩
      rw [runSteps_succ, Run.resume_of_running hr, hbefore]
    · refine ⟨0, p, out, by omega, rfl, ?_⟩
      rw [Run.resume_of_ended hr]

/-! ## Whole calls -/

/-- A budget that is not positive is refused before anything is looked at, even if the process has
ended. -/
theorem run_of_not_pos (p : Process) (out : Sink) {budget : Int} (h : budget ≤ 0) :
    p.run out budget = ⟨p, out, refusal budget⟩ := by
  simp [run, h]

/-- A number has more than `k` digits if and only if it is ten to the `k` at least. The limit on
digits is compared with a number in this way, without writing the number out. -/
theorem lt_digitCount_iff {k n : Nat} (hk : 0 < k) : k < digitCount n ↔ Nat.pow 10 k ≤ n := by
  have hshort : digitCount n ≤ k ↔ n < Nat.pow 10 k := Nat.length_toDigits_le_iff (by decide) hk
  rw [← Nat.not_le, hshort, Nat.not_lt]

theorem digitLimit_pos : 0 < digitLimit := by decide

/-- A budget that is not positive is named in its refusal, as long as it can be written, that is,
as long as it has no more digits than the limit allows. -/
theorem refusal_of_writable {budget : Int} (h : budget ≤ 0)
    (hw : -(Nat.pow 10 digitLimit : Int) < budget) :
    refusal budget = .failed (.budgetNotPositive budget) := by
  have hlt : ¬ digitLimit < digitCount budget.natAbs := by
    rw [lt_digitCount_iff digitLimit_pos]
    omega
  rw [refusal, if_neg hlt]

/-- A budget with more digits than that cannot be named. The error that the attempt raises is none
of the machine's own, and it escapes in place of the refusal. -/
theorem refusal_of_unwritable {budget : Int} (hw : budget ≤ -(Nat.pow 10 digitLimit : Int)) :
    refusal budget = .crashed .unwritable := by
  have hlt : digitLimit < digitCount budget.natAbs := by
    rw [lt_digitCount_iff digitLimit_pos]
    omega
  rw [refusal, if_pos hlt]

/-- The answer to a budget that is not positive comes from the call, not from the process, and not
from the sink either. -/
theorem refusal_own (budget : Int) : refusal budget ≠ .running ∧ (refusal budget).Own := by
  unfold refusal
  split
  · exact ⟨nofun, trivial⟩
  · exact ⟨nofun, trivial⟩

/-- A call of a running process takes as many steps as its budget says, unless it ends before. -/
theorem run_of_running {p : Process} (hp : p.status = .running) (out : Sink) {budget : Int}
    (h : 0 < budget) : p.run out budget = runSteps budget.toNat p out := by
  simp [run, hp, Int.not_le.mpr h]

theorem run_natCast {p : Process} (hp : p.status = .running) (out : Sink) {n : Nat} (hn : 0 < n) :
    p.run out n = runSteps n p out := by
  rw [run_of_running hp out (by omega), Int.toNat_natCast]

/-- A call after an exit only says so again. -/
theorem run_of_exited {p : Process} (hp : p.status = .exited) (out : Sink) {budget : Int}
    (h : 0 < budget) : p.run out budget = ⟨p, out, .exited⟩ := by
  simp [run, hp, Int.not_le.mpr h]

/-- A failed process cannot be resumed. -/
theorem run_of_failed {p : Process} (hp : p.status = .failed) (out : Sink) {budget : Int}
    (h : 0 < budget) : p.run out budget = ⟨p, out, .failed .notResumable⟩ := by
  simp [run, hp, Int.not_le.mpr h]

/-- **The inversion of a call.** It changes nothing and its answer does not depend on the sink, or it
takes steps. -/
theorem run_cases (p : Process) (budget : Int) :
    (∃ answer : Outcome, answer ≠ .running ∧ answer.Own
        ∧ ∀ out, p.run out budget = ⟨p, out, answer⟩)
      ∨ (p.status = .running ∧ 0 < budget
        ∧ ∀ out, p.run out budget = runSteps budget.toNat p out) := by
  by_cases hb : 0 < budget
  · cases hs : p.status with
    | running => exact Or.inr ⟨rfl, hb, fun out => run_of_running hs out hb⟩
    | exited => exact Or.inl ⟨.exited, nofun, trivial, fun out => run_of_exited hs out hb⟩
    | failed =>
      exact Or.inl ⟨.failed .notResumable, nofun, trivial, fun out => run_of_failed hs out hb⟩
  · obtain ⟨hne, hown⟩ := refusal_own budget
    exact Or.inl ⟨refusal budget, hne, hown, fun out => run_of_not_pos p out (Int.not_lt.mp hb)⟩

/-- What every step of a running process keeps, a call keeps. This is how facts about steps become
facts about processes that calls lead to. -/
theorem run_induction {P : Process → Sink → Prop} {p : Process} {out : Sink} (h₀ : P p out)
    (hstep : ∀ q out, q.status = .running → P q out → P (q.step out).process (q.step out).sink)
    (budget : Int) : P (p.run out budget).process (p.run out budget).sink := by
  rcases run_cases p budget with ⟨answer, -, -, hr⟩ | ⟨hs, -, hr⟩
  · rw [hr]
    exact h₀
  · rw [hr]
    exact runSteps_induction hs h₀ hstep budget.toNat

/-- A call neither opens nor closes the sink. -/
theorem isOpen_run (p : Process) (out : Sink) (budget : Int) :
    (p.run out budget).sink.isOpen = out.isOpen :=
  run_induction (P := fun _ s => s.isOpen = out.isOpen) rfl
    (fun q s _ h => (isOpen_step q s).trans h) budget

/-- Of a sink, only whether it is open makes a difference to the process. The induction is on the
steps; after each of them the two sinks are still open or closed alike. -/
theorem runSteps_congr (n : Nat) (p : Process) {out out' : Sink} (h : out'.isOpen = out.isOpen) :
    (runSteps n p out').process = (runSteps n p out).process
      ∧ (runSteps n p out').outcome = (runSteps n p out).outcome := by
  induction n generalizing p out out' with
  | zero => exact ⟨rfl, rfl⟩
  | succ n ih =>
    obtain ⟨hprocess, houtcome⟩ := step_congr p h
    rw [runSteps_succ, runSteps_succ]
    by_cases hr : (p.step out).outcome = .running
    · rw [Run.resume_of_running hr, Run.resume_of_running (houtcome.trans hr), hprocess]
      -- the first step has left both sinks as they were, open or closed
      exact ih _ (by rw [isOpen_step, isOpen_step, h])
    · rw [Run.resume_of_ended hr, Run.resume_of_ended (houtcome ▸ hr)]
      exact ⟨hprocess, houtcome⟩

/-- The same of calls: two sinks that are open or closed alike lead to the same process. -/
theorem run_congr (p : Process) {out out' : Sink} (h : out'.isOpen = out.isOpen) (budget : Int) :
    (p.run out' budget).process = (p.run out budget).process := by
  rcases run_cases p budget with ⟨answer, -, -, hr⟩ | ⟨-, -, hr⟩
  · rw [hr, hr]
  · rw [hr, hr]
    exact (runSteps_congr _ p h).1

/-- **Calls compose.** A call with the sum of two budgets is the first call, and then the second
one if the first has left the process running. -/
theorem run_add (p : Process) (out : Sink) {a b : Int} (ha : 0 < a) (hb : 0 < b) :
    p.run out (a + b) = (p.run out a).resume (·.run · b) := by
  have hab : 0 < a + b := by omega
  cases hs : p.status with
  | running =>
    -- a process that comes back running has the status to be resumed
    rw [run_of_running hs out hab, run_of_running hs out ha, Int.toNat_add (by omega) (by omega),
      runSteps_add]
    by_cases hr : (runSteps a.toNat p out).outcome = .running
    · rw [Run.resume_of_running hr, Run.resume_of_running hr,
        run_of_running (status_runSteps hs hr) _ hb]
    · rw [Run.resume_of_ended hr, Run.resume_of_ended hr]
  | exited =>
    -- a process that has ended answers every positive budget alike
    rw [run_of_exited hs out hab, run_of_exited hs out ha]
    rfl
  | failed =>
    rw [run_of_failed hs out hab, run_of_failed hs out ha]
    rfl

/-! ## The headline -/

/-- **Slicing is transparent.** For every process, every sink and all positive budgets: a call that
leaves the process running can be followed by a second one as if the two were one call with both
budgets, with the same process, sink and outcome; a call that does not is not changed by a larger
budget. Between the calls the sink is as open as before. -/
theorem slicing_transparent (p : Process) (out : Sink) {a b : Int} (ha : 0 < a) (hb : 0 < b) :
    ((p.run out a).outcome = .running →
        (p.run out a).process.run (p.run out a).sink b = p.run out (a + b))
      ∧ ((p.run out a).outcome ≠ .running → p.run out (a + b) = p.run out a)
      ∧ (p.run out a).sink.isOpen = out.isOpen := by
  refine ⟨?_, ?_, isOpen_run p out a⟩
  · intro h
    rw [run_add p out ha hb, Run.resume_of_running h]
  · intro h
    rw [run_add p out ha hb, Run.resume_of_ended h]

/-- Budgets that end just before the end of the program, and just on the exit. The first program
has no exit: the call that executes its last instruction still comes back running. -/
theorem slicing_transparent_at_end :
    (0 : Int) < 1
      ∧ ((Program.start [.noop]).run .empty 1).outcome = .running
      ∧ ((Program.start [.noop]).run .empty 1).process.run
            ((Program.start [.noop]).run .empty 1).sink 1
          = (Program.start [.noop]).run .empty (1 + 1)
      ∧ ((Program.start [.noop]).run .empty (1 + 1)).outcome = .failed (.endOfProgram 1)
      ∧ (Program.start [.exit]).run .empty (1 + 1) = (Program.start [.exit]).run .empty 1 := by
  have hnoop := slicing_transparent (Program.start [.noop]) .empty
    (show (0 : Int) < 1 by decide) (show (0 : Int) < 1 by decide)
  have hexit := slicing_transparent (Program.start [.exit]) .empty
    (show (0 : Int) < 1 by decide) (show (0 : Int) < 1 by decide)
  exact ⟨by decide, by decide, hnoop.1 (by decide), by decide, hexit.2.1 (by decide)⟩

end Process

end StackMachine
