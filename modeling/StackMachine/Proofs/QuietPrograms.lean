import StackMachine.Proofs.OpenSinks
import StackMachine.Proofs.Signals

/-!
# Programs without numbers that signal

A number that signals ends a run in a way that is none of the machine's own. No instruction makes such
a number (`Value.signals_of_apply`), so it would have to stand in the program. Here the programs in
which none stands are followed: their processes never hold one, and on an open sink they come to no
end but an exit or a failure of their own.

* **`Program.Quiet`**, **`Process.Quiet`**: nothing in the program or in the memory signals.
* **`Process.quiet_step`**, **`Process.quiet_run`**: steps and calls keep processes quiet.
* **`Process.crash?_step`**, **`Process.crash?_run`**: on an open sink a quiet process does not crash,
  other than by a budget that cannot be written.
-/

namespace StackMachine

/-! ## Quiet programs and memories -/

/-- Whether the operand of an instruction signals. -/
def Instruction.signals : Instruction → Bool
  | .push v | .assert v => v.signals
  | _ => false

/-- No operand in the program signals. -/
def Program.Quiet (p : Program) : Prop :=
  ∀ i ∈ p, i.signals = false

instance (p : Program) : Decidable p.Quiet :=
  inferInstanceAs (Decidable (∀ i ∈ p, i.signals = false))

/-- No value in the memory signals. -/
structure Memory.Quiet (m : Memory) : Prop where
  stack : ∀ v ∈ m.stack, v.signals = false
  registers : ∀ (r : Register) (v : Value), m.registers.get r = some v → v.signals = false

namespace Memory

/-- A process starts with no values at all. -/
theorem quiet_empty : empty.Quiet where
  stack := List.forall_mem_nil _
  registers := by
    intro r v h
    have hnone : empty.registers.get r = none := Vector.getElem_replicate r.isLt
    rw [hnone] at h
    cases h

/-- Another stack without signals in place of the one that is there. -/
theorem Quiet.withStack {m : Memory} (h : m.Quiet) {s : List Value}
    (hs : ∀ v ∈ s, v.signals = false) : Quiet { m with stack := s } :=
  ⟨hs, h.registers⟩

/-- A register is set to a value that does not signal. -/
theorem Quiet.set {m : Memory} (h : m.Quiet) (r : Register) {v : Value} (hv : v.signals = false) :
    Quiet { m with registers := Vector.set m.registers r (some v) r.isLt } := by
  refine ⟨h.stack, ?_⟩
  intro r' w hw
  have hget : (Vector.set m.registers r (some v) r.isLt).get r'
      = if r.val = r'.val then some v else m.registers.get r' := Vector.getElem_set r.isLt r'.isLt
  replace hw := hget.symm.trans hw
  split at hw
  · exact Option.some.inj hw ▸ hv
  · exact h.registers r' w hw

end Memory

namespace Instruction

/-- **An effect keeps the memory quiet.** What it adds to the stack is the operand of a push, a result,
or a value that was in the memory already. -/
theorem quiet_execute {i : Instruction} {m : Memory} {effect : Effect} (hi : i.signals = false)
    (hm : m.Quiet) (h : i.execute m = .ok effect) : effect.memory.Quiet := by
  obtain ⟨stack, registers⟩ := m
  have hstack : ∀ v ∈ stack, v.signals = false := hm.stack
  cases i with
  | noop => cases h; exact hm
  | exit => cases h; exact hm
  | dump => cases h; exact hm
  | clear => cases h; exact hm.withStack (List.forall_mem_nil _)
  | push v => cases h; exact hm.withStack (List.forall_mem_cons.mpr ⟨hi, hstack⟩)
  | pop =>
    rcases stack with _ | ⟨v, s⟩
    · cases h
    · cases h
      exact hm.withStack (List.forall_mem_cons.mp hstack).2
  | dup =>
    rcases stack with _ | ⟨v, s⟩
    · cases h
    · cases h
      exact hm.withStack (List.forall_mem_cons.mpr ⟨(List.forall_mem_cons.mp hstack).1, hstack⟩)
  | swap =>
    rcases stack with _ | ⟨v, _ | ⟨w, s⟩⟩
    · cases h
    · cases h
    · cases h
      refine hm.withStack ?_
      simp only [List.forall_mem_cons] at hstack ⊢
      exact ⟨hstack.2.1, hstack.1, hstack.2.2⟩
  | arith op =>
    rcases stack with _ | ⟨y, _ | ⟨x, s⟩⟩
    · cases h
    · cases h
    · simp only [execute] at h
      cases hv : x.apply op y with
      | error e => rw [hv] at h; cases h
      | ok v =>
        -- whatever the operands are, the result does not signal
        rw [hv] at h
        cases h
        simp only [List.forall_mem_cons] at hstack
        exact hm.withStack (List.forall_mem_cons.mpr ⟨Value.signals_of_apply hv, hstack.2.2⟩)
  | assert expected =>
    rcases stack with _ | ⟨v, s⟩
    · cases h
    · simp only [execute] at h
      cases hv : v.equals expected with
      | error conditions => rw [hv] at h; cases h
      | ok equal =>
        rw [hv] at h
        cases equal with
        | false => cases h
        | true => cases h; exact hm
  | load r =>
    simp only [execute] at h
    cases hv : registers.get r with
    | none => rw [hv] at h; cases h
    | some v =>
      rw [hv] at h
      cases h
      exact hm.withStack (List.forall_mem_cons.mpr ⟨hm.registers r v hv, hstack⟩)
  | store r =>
    rcases stack with _ | ⟨v, s⟩
    · cases h
    · cases h
      obtain ⟨hv, hs⟩ := List.forall_mem_cons.mp hstack
      exact (hm.withStack hs).set r hv
  | print =>
    rcases stack with _ | ⟨v, s⟩
    · cases h
    · simp only [execute] at h
      cases hv : v.printable? with
      | none => rw [hv] at h; cases h
      | some c => rw [hv] at h; cases h; exact hm

/-- What an instruction crashes on by itself is always the one signal. The other crashes come from
outside: from a closed sink, or from a budget that cannot be written. -/
theorem crash_eq_signal {i : Instruction} {m : Memory} {c : Crash}
    (h : i.execute m = .error (.crash c)) : c = .signal .signal := by
  obtain ⟨conditions, rfl, ⟨op, y, x, s, rfl, hs, hv⟩ | ⟨expected, v, s, rfl, hs, hv⟩⟩ :=
    execute_crash h
  · rw [Value.apply_eq_signal hv]
  · rw [Value.equals_eq_error hv]

/-- Without a number that signals there is nothing that an instruction could crash on. It could
only be a divisor on the stack, or one side of an assertion. -/
theorem execute_ne_crash {i : Instruction} {m : Memory} (hi : i.signals = false) (hm : m.Quiet)
    (c : Crash) : i.execute m ≠ .error (.crash c) := by
  intro h
  obtain ⟨conditions, -, ⟨op, y, x, s, rfl, hs, hv⟩ | ⟨expected, v, s, rfl, hs, hv⟩⟩ :=
    execute_crash h
  · -- the divisor is on the stack
    have hy : y.signals = false := hm.stack y (by simp [hs])
    exact Value.apply_ne_signal hy hv
  · have hq : v.signals = false := hm.stack v (by simp [hs])
    rw [Value.equals_of_quiet hq hi] at hv
    cases hv

end Instruction

namespace Process

/-- Nothing in the program or in the memory of the process signals. -/
structure Quiet (p : Process) : Prop where
  program : p.program.Quiet
  memory : p.memory.Quiet

/-- A quiet program is quiet when it starts, its memory being empty. -/
theorem quiet_start {prog : Program} (h : prog.Quiet) : prog.start.Quiet :=
  ⟨h, Memory.quiet_empty⟩

theorem Quiet.instruction {p : Process} (h : p.Quiet) {i : Instruction}
    (hi : p.program[p.ip]? = some i) : i.signals = false :=
  h.program i (List.mem_of_getElem? hi)

/-! ## Steps and runs -/

/-- **A step keeps a process quiet.** Only the two cases in which an effect is applied touch the
memory; in the others it is left as it was. -/
theorem quiet_step {p : Process} (h : p.Quiet) (out : Sink) : (p.step out).process.Quiet := by
  cases step_cases p out with
  | endOfProgram hi hr => rw [hr]; exact ⟨h.program, h.memory⟩
  | fault i cause hi he hr => rw [hr]; exact ⟨h.program, h.memory⟩
  | crash i c hi he hr => rw [hr]; exact ⟨h.program, h.memory⟩
  | sinkClosed i effect hi he hout hw hr => rw [hr]; exact ⟨h.program, h.memory⟩
  | exited i effect hi he hout hx hr =>
    rw [hr]
    exact ⟨h.program, Instruction.quiet_execute (h.instruction hi) h.memory he⟩
  | running i effect hi he hout hx hr =>
    rw [hr]
    exact ⟨h.program, Instruction.quiet_execute (h.instruction hi) h.memory he⟩

/-- So does a call, because it takes steps or changes nothing. -/
theorem quiet_run {p : Process} (h : p.Quiet) (out : Sink) (budget : Int) :
    (p.run out budget).process.Quiet :=
  run_induction (P := fun q _ => q.Quiet) h (fun _ out _ hq => quiet_step hq out) budget

/-- A quiet process does not crash on an open sink: its instruction does not crash by itself, and
its text is taken. -/
theorem crash?_step {p : Process} (h : p.Quiet) {out : Sink} (ho : out.isOpen = true) :
    (p.step out).outcome.crash? = none := by
  cases step_cases p out with
  | endOfProgram hi hr => rw [hr]; rfl
  | fault i cause hi he hr => rw [hr]; rfl
  | crash i c hi he hr =>
    exact absurd he (Instruction.execute_ne_crash (h.instruction hi) h.memory c)
  | sinkClosed i effect hi he hout hw hr => rw [ho] at hout; cases hout
  | exited i effect hi he hout hx hr => rw [hr]; rfl
  | running i effect hi he hout hx hr => rw [hr]; rfl

/-- Nor does it crash within any number of steps. What the steps pass on is that the process is
quiet and the sink is open. -/
theorem crash?_runSteps {p : Process} (h : p.Quiet) {out : Sink} (ho : out.isOpen = true) (n : Nat) :
    (runSteps n p out).outcome.crash? = none := by
  rcases runSteps_invariant (P := fun q out => q.Quiet ∧ out.isOpen = true)
    (Q := fun r => r.outcome.crash? = none)
    (fun q out hq _ => ⟨quiet_step hq.1 out, (isOpen_step q out).trans hq.2⟩)
    (fun _ _ hq _ => crash?_step hq.1 hq.2) n ⟨h, ho⟩ with ⟨hr, -⟩ | ⟨-, hr⟩
  · rw [hr]
    rfl
  · exact hr

/-- A call with a positive budget lets no crash of a quiet process through. -/
theorem crash?_run {p : Process} (h : p.Quiet) {out : Sink} (ho : out.isOpen = true) {budget : Int}
    (hb : 0 < budget) : (p.run out budget).outcome.crash? = none := by
  cases hs : p.status with
  | running =>
    rw [run_of_running hs out hb]
    exact crash?_runSteps h ho _
  | exited => rw [run_of_exited hs out hb]; rfl
  | failed => rw [run_of_failed hs out hb]; rfl

end Process

end StackMachine
