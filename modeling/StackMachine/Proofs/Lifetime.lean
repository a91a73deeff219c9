import StackMachine.Proofs.QuietPrograms

/-!
# The lifetime of a process

Every process comes to an end, because each step moves it towards the end of its program. Its
lifetime is the number of steps until then, the last one included, which exits, fails or crashes. The
lifetime decides everything that budgets can show of a process: a run with fewer steps comes back
running, and all others are one and the same run.

* **`Process.Ends`**: the process ends with a given number of steps, in a given run.
* **`Process.exists_ends`**: every process ends, at the latest with the step behind its program.
* **`Process.Ends.runSteps_of_le`**, **`Process.Ends.drop`**: what a run shows of it.
* **`Process.Ends.steps_eq`**: an exit counts as a completed step, a failing step does not.
-/

namespace StackMachine.Process

/-! ## Ends -/

/-- `p` ends with its `n`-th step from now on, and the run ends as `r`. -/
inductive Ends : Process → Sink → Nat → Run → Prop where
  | last {p : Process} {out : Sink} (h : (p.step out).outcome ≠ .running) :
      Ends p out 1 (p.step out)
  | step {p : Process} {out : Sink} {n : Nat} {r : Run} (h : (p.step out).outcome = .running)
      (rest : Ends (p.step out).process (p.step out).sink n r) : Ends p out (n + 1) r

/-- Every process ends. The induction is on what is left of its program, of which each step that
goes on takes one instruction. -/
theorem exists_ends (p : Process) (out : Sink) : ∃ n r, n ≤ p.remaining + 1 ∧ Ends p out n r := by
  -- on what is left of the program: a step that comes back running has used up one instruction
  induction hk : p.remaining generalizing p out with
  | zero =>
    -- behind the program there is no step to come back from
    have hended : (p.step out).outcome ≠ .running := by
      intro hr
      have := remaining_step hr
      omega
    exact ⟨1, p.step out, by omega, .last hended⟩
  | succ k ih =>
    by_cases hr : (p.step out).outcome = .running
    · have hrem := remaining_step hr
      obtain ⟨n, r, hn, hends⟩ := ih (p.step out).process (p.step out).sink (by omega)
      exact ⟨n + 1, r, by omega, .step hr hends⟩
    · exact ⟨1, p.step out, by omega, .last hr⟩

namespace Ends

variable {p : Process} {out : Sink} {n : Nat} {r : Run}

theorem pos (h : Ends p out n r) : 0 < n := by
  cases h with
  | last _ => exact Nat.one_pos
  | step _ _ => exact Nat.succ_pos _

/-- The last step does not come back running. -/
theorem outcome_ne (h : Ends p out n r) : r.outcome ≠ .running := by
  induction h with
  | last hended => exact hended
  | step _ _ ih => exact ih

/-! ## What runs show of the lifetime -/

/-- A run that may take all the steps ends as `r`, whatever it may take beyond. The induction
follows the lifetime, one step after the other. -/
theorem runSteps_of_le (h : Ends p out n r) {m : Nat} (hm : n ≤ m) : runSteps m p out = r := by
  induction h generalizing m with
  | last hended =>
    obtain ⟨k, rfl⟩ := Nat.exists_eq_add_of_le' hm
    rw [runSteps_succ, Run.resume_of_ended hended]
  | @step p out n r hr _ ih =>
    obtain ⟨k, rfl⟩ := Nat.exists_eq_add_of_le' (Nat.le_of_add_left_le hm)
    rw [runSteps_succ, Run.resume_of_running hr]
    exact ih (by omega)

/-- A run with fewer steps comes back running, and what is left is the rest of the lifetime. A
slice is such a run. -/
theorem drop (h : Ends p out n r) {m : Nat} (hm : m < n) :
    (runSteps m p out).outcome = .running
      ∧ Ends (runSteps m p out).process (runSteps m p out).sink (n - m) r := by
  induction h generalizing m with
  | @last p out hended =>
    obtain rfl : m = 0 := by omega
    exact ⟨rfl, .last hended⟩
  | @step p out n r hr hrest ih =>
    cases m with
    | zero => exact ⟨rfl, .step hr hrest⟩
    | succ m =>
      rw [runSteps_succ, Run.resume_of_running hr, Nat.add_sub_add_right]
      exact ih (by omega)

/-- The steps that the process has completed in the end: all of its lifetime when it exits, all but
the last one when it does not. -/
theorem steps_eq (h : Ends p out n r) :
    r.process.steps + (if r.outcome = .exited then 0 else 1) = p.steps + n := by
  induction h with
  | @last p out hended =>
    cases step_cases p out with
    | endOfProgram hi hr => rw [hr]; rfl
    | fault i cause hi he hr => rw [hr]; rfl
    | crash i c hi he hr => rw [hr]; rfl
    | sinkClosed i effect hi he hout hw hr => rw [hr]; rfl
    | exited i effect hi he hout hx hr => rw [hr]; rfl
    | running i effect hi he hout hx hr => rw [hr] at hended; exact absurd rfl hended
  | @step p out n r hr _ ih =>
    obtain ⟨i, effect, -, -, -, hs⟩ := step_running hr
    have hsteps : (p.step out).process.steps = p.steps + 1 := by rw [hs]; rfl
    rw [ih, hsteps]
    omega

/-- Within the lifetime every step is a completed one. Only the last step of all may be one that
is not counted. -/
theorem steps_of_lt (h : Ends p out n r) {m : Nat} (hm : m < n) :
    (runSteps m p out).process.steps = p.steps + m := by
  -- both the whole lifetime and what is left of it lead to the same end
  have hend := h.steps_eq
  have hrest := (h.drop hm).2.steps_eq
  omega

/-- On an open sink the end of a quiet process is an exit or a failure: there is nothing left that
it could crash on. -/
theorem exited_or_failed (h : Ends p out n r) (ho : out.isOpen = true) (hq : p.Quiet) :
    r.outcome = .exited ∨ ∃ f, r.outcome = .failed f := by
  have hcalm := crash?_runSteps hq ho n
  rw [h.runSteps_of_le (Nat.le_refl n)] at hcalm
  cases hr : r.outcome with
  | running => exact absurd hr h.outcome_ne
  | exited => exact Or.inl rfl
  | failed f => exact Or.inr ⟨f, rfl⟩
  | crashed c => rw [hr] at hcalm; cases hcalm

/-- A lone call with one step more than the program has instructions reaches the end. The
additional one is the step behind the last instruction. -/
theorem run_start {prog : Program} (h : Ends prog.start out n r) (hn : n ≤ prog.length + 1) :
    prog.start.run out (prog.length + 1) = r := by
  show prog.start.run out ((prog.length + 1 : Nat) : Int) = r
  rw [run_natCast rfl out (Nat.succ_pos _)]
  exact h.runSteps_of_le hn

end Ends

/-- A call that comes back running has completed as many steps as its budget allows. It was
shorter than what was left of the lifetime. -/
theorem steps_run {p : Process} {out : Sink} {budget : Int}
    (h : (p.run out budget).outcome = .running) :
    (p.run out budget).process.status = .running
      ∧ (p.run out budget).process.steps = p.steps + budget.toNat := by
  rcases run_cases p budget with ⟨answer, hne, -, hr⟩ | ⟨hs, -, hr⟩
  · rw [hr] at h
    exact absurd h hne
  · rw [hr] at h ⊢
    obtain ⟨n, r, -, hends⟩ := exists_ends p out
    -- the budget lies within the lifetime, or the call would have ended
    have hlt : budget.toNat < n := by
      apply Nat.lt_of_not_le
      intro hle
      rw [hends.runSteps_of_le hle] at h
      exact hends.outcome_ne h
    exact ⟨status_runSteps hs h, hends.steps_of_lt hlt⟩

end StackMachine.Process
