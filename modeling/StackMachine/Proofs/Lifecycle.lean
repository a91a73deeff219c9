import StackMachine.Proofs.Atomicity

/-!
# The lifecycle of a process

A process moves through its program one instruction at a time and never back. Where it stands tells
what it has done: the instruction pointer counts the steps, and the exit, once executed, is the last
instruction before it. What stands behind the first exit is never looked at.

* **`Process.Placed`**: what the place in the program says about the process. It is an invariant of
  the steps as it stands (`Process.Placed.step`).
* **`Process.Reaches.ip_le`**, **`Process.Reaches.eq_of_ended`**: calls never lead back, and from an
  ended process they lead nowhere.
* **`Process.run_fails_here_iff`**: a call fails at the current instruction if the step does.
* **`Process.calls_withProgram`**: two programs that agree up to an exit cannot be told apart.
* **`Process.lifecycle`**: the headline.
-/

namespace StackMachine

theorem Instruction.isExit_iff {i : Instruction} : i.isExit = true ↔ i = .exit := by
  cases i <;> simp [isExit]

namespace Process

/-! ## The place in the program -/

/-- What the instruction pointer of a process of this program says about it. -/
structure Placed (prog : Program) (p : Process) : Prop where
  program : p.program = prog
  steps : p.ip = p.steps
  within : p.ip ≤ prog.length
  /-- The exit can only be the last instruction that was executed. -/
  noExit : ∀ j, j + 1 < p.ip → prog[j]? ≠ some .exit
  exited_iff : p.status = .exited ↔ ∃ j, p.ip = j + 1 ∧ prog[j]? = some .exit

namespace Placed

variable {prog : Program} {p : Process}

theorem start (prog : Program) : Placed prog prog.start where
  program := rfl
  steps := rfl
  within := Nat.zero_le _
  noExit := nofun
  exited_iff := ⟨nofun, fun ⟨_, h, _⟩ => nomatch h⟩

/-- A process that has not exited has executed no exit: the instructions before its place are the
ones that it has executed. -/
theorem ne_exit (h : Placed prog p) (hp : p.status ≠ .exited) {j : Nat} (hj : j < p.ip) :
    prog[j]? ≠ some .exit := by
  intro hexit
  rcases Nat.lt_or_eq_of_le (Nat.succ_le_of_lt hj) with hlt | heq
  · exact h.noExit j hlt hexit
  · exact hp (h.exited_iff.mpr ⟨j, heq.symm, hexit⟩)

/-- A failing step moves nothing, and a running process that fails has not exited. So the place
stays as it was described. -/
theorem fail (h : Placed prog p) (hp : p.status = .running) : Placed prog p.fail where
  program := h.program
  steps := h.steps
  within := h.within
  noExit := h.noExit
  exited_iff := by
    refine ⟨nofun, fun hex => ?_⟩
    have hexited := h.exited_iff.mpr hex
    rw [hp] at hexited
    cases hexited

/-- An executed instruction moves the pointer past itself, and the process has exited if and only if
it is the exit. -/
theorem advance (h : Placed prog p) (hp : p.status = .running) {i : Instruction}
    (hi : prog[p.ip]? = some i) (memory : Memory) {status : Status}
    (hstatus : status = .exited ↔ i = .exit) : Placed prog (p.advance memory status) where
  program := h.program
  steps := congrArg (· + 1) h.steps
  within := (List.getElem?_eq_some_iff.mp hi).1
  noExit := by
    intro j hj
    have hbefore : j < p.ip := Nat.lt_of_succ_lt_succ hj
    exact h.ne_exit (by rw [hp]; nofun) hbefore
  exited_iff := by
    show status = .exited ↔ ∃ j, p.ip + 1 = j + 1 ∧ prog[j]? = some .exit
    rw [hstatus]
    constructor
    · rintro rfl
      exact ⟨p.ip, rfl, hi⟩
    · rintro ⟨j, hj, hexit⟩
      cases hj
      rw [hi] at hexit
      exact Option.some.inj hexit

/-- **The place is kept by every step.** The cases are those of a step; only two of them move on.
-/
theorem step (h : Placed prog p) (hp : p.status = .running) (out : Sink) :
    Placed prog (p.step out).process := by
  -- a step fails where it is or moves past one instruction
  cases step_cases p out with
  | endOfProgram hi hr => rw [hr]; exact h.fail hp
  | fault i cause hi he hr => rw [hr]; exact h.fail hp
  | crash i c hi he hr => rw [hr]; exact h.fail hp
  | sinkClosed i effect hi he hout hw hr => rw [hr]; exact h.fail hp
  | exited i effect hi he hout hx hr =>
    rw [h.program] at hi
    rw [hr]
    exact h.advance hp hi effect.memory (by simp [Instruction.isExit_iff.mp hx])
  | running i effect hi he hout hx hr =>
    rw [h.program] at hi
    have hne : i ≠ .exit := by
      intro hexit
      rw [Instruction.isExit_iff.mpr hexit] at hx
      cases hx
    rw [hr]
    exact h.advance hp hi effect.memory (by simp [hne])

end Placed

/-- So the place of every process that calls lead to is described by its program. -/
theorem Reachable.placed {prog : Program} {p : Process} (h : Reachable prog p) : Placed prog p :=
  Reaches.induction h (.start prog) fun _ out hq h => h.step hq out

/-! ## No way back -/

/-- No step goes back. -/
theorem ip_le_step (p : Process) (out : Sink) : p.ip ≤ (p.step out).process.ip := by
  cases step_cases p out with
  | endOfProgram hi hr => rw [hr]; exact Nat.le_refl _
  | fault i cause hi he hr => rw [hr]; exact Nat.le_refl _
  | crash i c hi he hr => rw [hr]; exact Nat.le_refl _
  | sinkClosed i effect hi he hout hw hr => rw [hr]; exact Nat.le_refl _
  | exited i effect hi he hout hx hr => rw [hr]; exact Nat.le_succ _
  | running i effect hi he hout hx hr => rw [hr]; exact Nat.le_succ _

/-- A failing step names the place where it stands, whether an instruction has failed there or
there is none. -/
theorem ip?_of_step {p : Process} {out : Sink} {f : Failure} (h : (p.step out).outcome = .failed f) :
    f.ip? = some p.ip := by
  cases step_cases p out with
  | endOfProgram hi hr => rw [hr] at h; cases h; rfl
  | fault i cause hi he hr => rw [hr] at h; cases h; rfl
  | crash i c hi he hr => rw [hr] at h; cases h
  | sinkClosed i effect hi he hout hw hr => rw [hr] at h; cases h
  | exited i effect hi he hout hx hr => rw [hr] at h; cases h
  | running i effect hi he hout hx hr => rw [hr] at h; cases h

/-- No call fails before the place where it was made: its last step starts from there or from
further on. -/
theorem le_of_ip? {n : Nat} {p : Process} {out : Sink} {f : Failure} {j : Nat}
    (h : (runSteps n p out).outcome = .failed f) (hj : f.ip? = some j) : p.ip ≤ j := by
  -- no step leads back, so the last one does not fail before the first
  have hlast (q : Process) (out : Sink) (hq : p.ip ≤ q.ip) (_ : (q.step out).outcome ≠ .running) :
      ∀ f, (q.step out).outcome = .failed f → ∀ j, f.ip? = some j → p.ip ≤ j := by
    intro f hf j hj
    rw [ip?_of_step hf] at hj
    cases hj
    exact hq
  rcases @runSteps_invariant (fun q _ => p.ip ≤ q.ip)
    (fun r => ∀ f, r.outcome = .failed f → ∀ j, f.ip? = some j → p.ip ≤ j)
    (fun q out hq _ => Nat.le_trans hq (ip_le_step q out)) hlast n p out (Nat.le_refl _)
    with ⟨hr, -⟩ | ⟨-, hfails⟩
  · rw [hr] at h
    cases h
  · exact hfails f h j hj

/-- A call of a running process fails at its current instruction if and only if the step does. If
the first step goes on, the failure is at a later place. -/
theorem run_fails_here_iff {p : Process} (hp : p.status = .running) (out : Sink) {budget : Int}
    (hb : 0 < budget) (f : Failure) :
    ((p.run out budget).outcome = .failed f ∧ f.ip? = some p.ip)
      ↔ (p.step out).outcome = .failed f := by
  obtain ⟨n, hn⟩ : ∃ n, budget.toNat = n + 1 := ⟨budget.toNat - 1, by omega⟩
  rw [run_of_running hp out hb, hn, runSteps_succ]
  by_cases hr : (p.step out).outcome = .running
  · -- the instruction is behind the process, and a failure to come is too
    obtain ⟨i, effect, -, -, -, hs⟩ := step_running hr
    have hip : (p.step out).process.ip = p.ip + 1 := by rw [hs]; rfl
    rw [Run.resume_of_running hr, hr]
    constructor
    · rintro ⟨hf, hhere⟩
      have hle := le_of_ip? hf hhere
      omega
    · nofun
  · rw [Run.resume_of_ended hr]
    exact ⟨fun h => h.1, fun h => ⟨h, ip?_of_step h⟩⟩

/-- Calls never lead back. -/
theorem Reaches.ip_le {p q : Process} (h : Reaches p q) : p.ip ≤ q.ip :=
  h.induction (P := fun q => p.ip ≤ q.ip) (Nat.le_refl _)
    fun q out _ hq => Nat.le_trans hq (ip_le_step q out)

/-- A call of an ended process changes nothing, whatever it is answered with. -/
theorem run_of_ended {p : Process} (hp : p.status ≠ .running) (out : Sink) (budget : Int) :
    (p.run out budget).process = p ∧ (p.run out budget).sink = out := by
  rcases run_cases p budget with ⟨answer, -, -, hr⟩ | ⟨hrun, -, -⟩
  · rw [hr]
    exact ⟨rfl, rfl⟩
  · exact absurd hrun hp

/-- Nothing leads away from a process that has ended, be it by an exit or by a failure. -/
theorem Reaches.eq_of_ended {p q : Process} (h : Reaches p q) (hp : p.status ≠ .running) : q = p := by
  induction h with
  | refl => rfl
  | run _ out budget ih =>
    rw [ih]
    exact (run_of_ended hp out budget).1

/-! ## Behind the exit

A process stands at an instruction that it is about to execute only if no exit comes before it. So
the instructions that matter are those up to the first exit. -/

/-- The runs of calls with the given budgets, one after the other. -/
def calls (p : Process) (out : Sink) : List Int → List Run
  | [] => []
  | budget :: budgets =>
    let r := p.run out budget
    r :: r.process.calls r.sink budgets

end Process

/-- Another program can be put in place after a run and what follows it, if it can be put in place
after what follows. -/
theorem Run.resume_withProgram {prog : Program} {r : Run} {f g : Process → Sink → Run}
    (h : r.outcome = .running →
      g (r.process.withProgram prog) r.sink = (f r.process r.sink).withProgram prog) :
    (r.withProgram prog).resume g = (r.resume f).withProgram prog := by
  by_cases hr : r.outcome = .running
  · rw [resume_of_running hr, resume_of_running (r := r.withProgram prog) hr]
    exact h hr
  · rw [resume_of_ended hr, resume_of_ended (r := r.withProgram prog) hr]

namespace Process

section

variable {prog prog' : Program} {n : Nat}

/-- The two programs have the same instruction where a running process can stand. It has not
passed the exit, so it stands in the part on which the programs agree. -/
theorem Placed.getElem?_eq {p : Process} (h : Placed prog p) (hp : p.status = .running)
    (hexit : prog[n]? = some .exit) (hagree : prog'.take (n + 1) = prog.take (n + 1)) :
    prog'[p.ip]? = p.program[p.ip]? := by
  have hle : p.ip ≤ n := by
    apply Nat.le_of_not_lt
    intro hlt
    exact h.ne_exit (by rw [hp]; nofun) hlt hexit
  rw [h.program, ← List.getElem?_take_of_lt (Nat.lt_succ_of_le hle), hagree,
    List.getElem?_take_of_lt (Nat.lt_succ_of_le hle)]

/-- Steps in one program are steps in the other. The induction is on the steps; the place is what
carries it. -/
theorem runSteps_withProgram (hexit : prog[n]? = some .exit)
    (hagree : prog'.take (n + 1) = prog.take (n + 1)) (k : Nat) {p : Process} (h : Placed prog p)
    (hp : p.status = .running) (out : Sink) :
    runSteps k (p.withProgram prog') out = (runSteps k p out).withProgram prog' := by
  induction k generalizing p out with
  | zero => rfl
  | succ k ih =>
    rw [runSteps_succ, runSteps_succ, step_withProgram (h.getElem?_eq hp hexit hagree)]
    apply Run.resume_withProgram
    intro hr
    exact ih (h.step hp out) (status_step hr) (p.step out).sink

/-- The same of calls. A refused one does not look at the program at all. -/
theorem run_withProgram (hexit : prog[n]? = some .exit)
    (hagree : prog'.take (n + 1) = prog.take (n + 1)) {p : Process} (h : Placed prog p)
    (out : Sink) (budget : Int) :
    (p.withProgram prog').run out budget = (p.run out budget).withProgram prog' := by
  -- a refused call does not look at the program, and neither does one of an ended process
  by_cases hb : 0 < budget
  · cases hp : p.status with
    | running =>
      have hp' : (p.withProgram prog').status = .running := hp
      rw [run_of_running hp out hb, run_of_running hp' out hb]
      exact runSteps_withProgram hexit hagree _ h hp out
    | exited =>
      have hp' : (p.withProgram prog').status = .exited := hp
      rw [run_of_exited hp out hb, run_of_exited hp' out hb]
      rfl
    | failed =>
      have hp' : (p.withProgram prog').status = .failed := hp
      rw [run_of_failed hp out hb, run_of_failed hp' out hb]
      rfl
  · rw [run_of_not_pos p out (Int.not_lt.mp hb), run_of_not_pos _ out (Int.not_lt.mp hb)]
    rfl

/-- **What stands behind an exit makes no difference** to any sequence of calls. -/
theorem calls_withProgram (hexit : prog[n]? = some .exit)
    (hagree : prog'.take (n + 1) = prog.take (n + 1)) {p : Process} (h : Placed prog p)
    (out : Sink) (budgets : List Int) :
    (p.withProgram prog').calls out budgets = (p.calls out budgets).map (Run.withProgram prog') := by
  induction budgets generalizing p out with
  | nil => rfl
  | cons budget budgets ih =>
    have hnext : Placed prog (p.run out budget).process :=
      run_induction (P := fun q _ => Placed prog q) h (fun _ out hq h => h.step hq out) budget
    simp only [calls, List.map_cons, run_withProgram hexit hagree h]
    congr 1
    exact ih hnext _

end

/-! ## The headline -/

/-- **The lifecycle of a process.** In every process that calls with any budgets lead to, the
instruction pointer counts the steps and stays within the program; no instruction before the last
executed one is the exit; the process has exited if and only if that one is. Later calls never lead
back. Once the process has ended, they change neither it nor a sink, and an exited process answers
that it has exited. So two programs that agree up to and including an exit have the same runs,
whatever follows it. -/
theorem lifecycle {prog : Program} {p : Process} (hp : Reachable prog p) :
    p.ip = p.steps ∧ p.ip ≤ prog.length
      ∧ (∀ j, j + 1 < p.ip → prog[j]? ≠ some .exit)
      ∧ (p.status = .exited ↔ 1 ≤ p.ip ∧ prog[p.ip - 1]? = some .exit)
      ∧ (∀ q, Reaches p q → p.ip ≤ q.ip)
      ∧ (p.status ≠ .running → ∀ q, Reaches p q → ∀ (out : Sink) (budget : Int),
          (q.run out budget).process = p ∧ (q.run out budget).sink = out
            ∧ (p.status = .exited → 0 < budget → (q.run out budget).outcome = .exited))
      ∧ ∀ (prog' : Program) (n : Nat), prog[n]? = some .exit →
          prog'.take (n + 1) = prog.take (n + 1) → ∀ (out : Sink) (budgets : List Int),
            prog'.start.calls out budgets
              = (prog.start.calls out budgets).map (Run.withProgram prog') := by
  have h := hp.placed
  refine ⟨h.steps, h.within, h.noExit, ?_, fun q hq => hq.ip_le, ?_, ?_⟩
  · -- the invariant says which instruction was executed last; here it is told with a subtraction
    rw [h.exited_iff]
    constructor
    · rintro ⟨j, hj, hexit⟩
      rw [hj]
      exact ⟨Nat.le_add_left 1 j, hexit⟩
    · rintro ⟨hpos, hexit⟩
      exact ⟨p.ip - 1, (Nat.sub_add_cancel hpos).symm, hexit⟩
  · -- an ended process is never left
    intro hended q hq out budget
    rw [hq.eq_of_ended hended]
    obtain ⟨hprocess, hsink⟩ := run_of_ended hended out budget
    refine ⟨hprocess, hsink, fun hexited hb => ?_⟩
    rw [run_of_exited hexited out hb]
  · intro prog' n hexit hagree out budgets
    exact calls_withProgram hexit hagree (.start prog) out budgets

/-- A process that exits in the middle of its program, run with budgets that are rejected, too small
and too large. The instruction behind the exit would fail; with others in its place the runs are the
same. -/
theorem lifecycle_exit_in_the_middle :
    let prog : Program := [.noop, .exit, .pop]
    let p := ((prog.start.run .empty 1).process.run .empty 5).process
    Reachable prog p ∧ p.ip = 2 ∧ p.steps = 2 ∧ p.status = .exited
      ∧ (p.run .empty 9).outcome = .exited ∧ (p.run .empty 9).process = p
      ∧ (Program.start [.noop, .exit, .exit, .noop]).calls .empty [0, 1, -3, 5, 9]
          = (prog.start.calls .empty [0, 1, -3, 5, 9]).map
              (Run.withProgram [.noop, .exit, .exit, .noop]) := by
  intro prog p
  have hp : Reachable prog p := .run (.run .refl .empty 1) .empty 5
  obtain ⟨hsteps, -, -, hexited, -, hended, hbehind⟩ := lifecycle hp
  have hip : p.ip = 2 := by decide
  have hstatus : p.status = .exited := hexited.mpr (by rw [hip]; exact ⟨by decide, rfl⟩)
  obtain ⟨hprocess, -, houtcome⟩ := hended (by rw [hstatus]; nofun) p .refl .empty 9
  exact ⟨hp, hip, hsteps ▸ hip, hstatus, houtcome hstatus (by decide), hprocess,
    hbehind [.noop, .exit, .exit, .noop] 1 rfl rfl .empty [0, 1, -3, 5, 9]⟩

end Process

end StackMachine
