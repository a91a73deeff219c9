import StackMachine.Proofs.Lifecycle

/-!
# Kinds are known before a program is run

Which kinds of numbers are on the stack and in the registers depends on the program alone: no
instruction chooses a kind by looking at a number. The analysis runs a program on kinds and loses
nothing that a fault of depth or of an empty register depends on. So these two faults can be read off
the program, and changing its numbers does not change where they happen.

* **`Kinds.step`**, **`Kinds.after`**: an instruction, and a program, on kinds alone.
* **`Instruction.execute_cases`**: how an instruction ends, when, and what it does to the kinds.
* **`Process.Reachable.analysed`**: the simulation, for all processes that calls lead to.
* **`Kinds.after_map_zeroed`**: the analysis does not look at the numbers of a program.
* **`Process.kind_analysis_exact`**: the headline.
-/

namespace StackMachine

/-! ## The analysis -/

/-- What is left of a memory when its numbers are forgotten. -/
structure Kinds where
  stack : List Kind
  registers : Vector (Option Kind) registerCount
deriving DecidableEq

def Memory.kinds (m : Memory) : Kinds :=
  ⟨m.stack.map (·.kind), m.registers.map (Option.map (·.kind))⟩

/-- The higher-ranked of two kinds. -/
def Kind.higher (j k : Kind) : Kind :=
  if j.rank < k.rank then k else j

/-- How many values an instruction needs on the stack. -/
def Opcode.needs : Opcode → Nat
  | .pop | .dup | .assert | .store | .print => 1
  | .swap | .arith _ => 2
  | _ => 0

namespace Kinds

def empty : Kinds :=
  ⟨[], Vector.replicate registerCount none⟩

/-- An instruction on kinds; none where there is nothing to move. -/
def step (a : Kinds) (i : Instruction) : Option Kinds :=
  match i, a.stack with
  | .push v, s => some { a with stack := v.kind :: s }
  | .pop, _ :: s => some { a with stack := s }
  | .clear, _ => some { a with stack := [] }
  | .dup, k :: s => some { a with stack := k :: k :: s }
  | .swap, j :: k :: s => some { a with stack := k :: j :: s }
  | .arith _, j :: k :: s => some { a with stack := k.higher j :: s }
  | .load r, s => (a.registers.get r).map fun k => { a with stack := k :: s }
  | .store r, k :: s => some ⟨s, a.registers.set r (some k) r.isLt⟩
  | .noop, _ | .dump, _ | .assert _, _ | .print, _ | .exit, _ => some a
  | _, _ => none

/-- The kinds after a sequence of instructions. -/
def after (a : Kinds) : Program → Option Kinds
  | [] => some a
  | i :: prog => (a.step i).bind (·.after prog)

/-- The analysis of one instruction more comes after that of the others, which is the order in
which a process executes them. Induction over the program. -/
theorem after_concat (a : Kinds) (prog : Program) (i : Instruction) :
    a.after (prog ++ [i]) = (a.after prog).bind (·.step i) := by
  induction prog generalizing a with
  | nil =>
    show (a.step i).bind some = a.step i
    exact Option.bind_fun_some _
  | cons j prog ih =>
    show (a.step j).bind (·.after (prog ++ [i])) = ((a.step j).bind (·.after prog)).bind (·.step i)
    rw [Option.bind_assoc]
    congr 1
    funext b
    exact ih b

end Kinds

/-! ## One instruction -/

/-- The kind that arithmetic promotes to is the higher-ranked of the two. -/
theorem Kind.join_eq_higher (j k : Kind) : j.join k = j.higher k := by
  unfold join higher
  by_cases h : k ≤ j
  · have hle : k.rank ≤ j.rank := h
    rw [if_pos h, if_neg (Nat.not_lt.mpr hle)]
  · have hlt : j.rank < k.rank := Nat.lt_of_not_le h
    rw [if_neg h, if_pos hlt]

/-- The kind of a result does not depend on the numbers. Each operation joins the kinds, computes
in the joined kind and stays in it, or fails. -/
theorem Value.kind_of_apply {op : Operation} {x y v : Value} (h : x.apply op y = .ok v) :
    v.kind = x.kind.higher y.kind := by
  cases hs : op.divides && y.signals with
  | true => rw [apply_of_signals hs] at h; cases h
  | false =>
    cases hz : obstacleOrNumber op x y with
    | error obstacle => rw [apply_of_error hs hz] at h; cases h
    | ok z =>
      rw [apply_of_ok hs hz] at h
      cases h
      exact Kind.join_eq_higher x.kind y.kind

namespace Memory

@[simp] theorem stack_kinds (m : Memory) : m.kinds.stack = m.stack.map (·.kind) := rfl

@[simp] theorem get_registers_kinds (m : Memory) (r : Register) :
    m.kinds.registers.get r = (m.registers.get r).map (·.kind) :=
  Vector.getElem_map (Option.map Value.kind) r.isLt

/-- A process starts with the kinds that the analysis starts with. -/
theorem kinds_empty : Memory.empty.kinds = .empty := by
  simp [kinds, empty, Kinds.empty]

end Memory

/-- The faults that depend on the numbers. -/
def Fault.IsNumeric : Fault → Prop
  | .arithmetic _ | .assertionFailed .. | .notPrintable _ => True
  | _ => False

namespace Fault

/-- A fault that depends on the numbers is not in the category of an underflow, so it does not
disturb what the analysis says of that one. -/
theorem IsNumeric.kind_ne_underflow {cause : Fault} (h : cause.IsNumeric) :
    cause.kind ≠ "StackUnderflow" := by
  cases cause <;> simp [IsNumeric, kind] at h ⊢

/-- Nor is it in the category of an uninitialised register. -/
theorem IsNumeric.kind_ne_uninitialized {cause : Fault} (h : cause.IsNumeric) :
    cause.kind ≠ "UninitializedRegister" := by
  cases cause <;> simp [IsNumeric, kind] at h ⊢

end Fault

namespace Instruction

/-- How an instruction ends, why, and what it does to the kinds. -/
inductive ExecuteCase (i : Instruction) (m : Memory) : Prop where
  | underflow (hshort : m.stack.length < i.opcode.needs)
      (he : i.execute m = .error (.fault (.stackUnderflow i.opcode.needs m.stack.length)))
  | uninitialized (r : Register) (hi : i = .load r) (hr : m.registers.get r = none)
      (he : i.execute m = .error (.fault (.uninitialized r)))
  | numeric (cause : Fault) (hdeep : i.opcode.needs ≤ m.stack.length) (hi : ∀ r, i ≠ .load r)
      (hc : cause.IsNumeric) (he : i.execute m = .error (.fault cause))
  | signal (c : Crash) (hdeep : i.opcode.needs ≤ m.stack.length) (hi : ∀ r, i ≠ .load r)
      (he : i.execute m = .error (.crash c))
  | executed (effect : Effect) (hdeep : i.opcode.needs ≤ m.stack.length)
      (hload : ∀ r, i = .load r → m.registers.get r ≠ none)
      (hk : m.kinds.step i = some effect.memory.kinds) (he : i.execute m = .ok effect)

/-- **The inversion of an instruction.** It succeeds with the kinds that the analysis gives, or it
fails: the stack is too short, a register holds nothing, the numbers have no result, or one of
them signals. One case for each instruction; all that follows reads off these ends. -/
theorem execute_cases (i : Instruction) (m : Memory) : ExecuteCase i m := by
  obtain ⟨stack, registers⟩ := m
  -- by the instruction and by how deep the stack is
  cases i with
  | noop => exact .executed _ (Nat.zero_le _) (fun _ h => by cases h) rfl rfl
  | dump => exact .executed _ (Nat.zero_le _) (fun _ h => by cases h) rfl rfl
  | exit => exact .executed _ (Nat.zero_le _) (fun _ h => by cases h) rfl rfl
  | clear => exact .executed _ (Nat.zero_le _) (fun _ h => by cases h) rfl rfl
  | push v => exact .executed _ (Nat.zero_le _) (fun _ h => by cases h) rfl rfl
  | pop =>
    rcases stack with _ | ⟨v, s⟩
    · exact .underflow Nat.one_pos rfl
    · exact .executed _ (Nat.le_add_left 1 s.length) (fun _ h => by cases h) rfl rfl
  | dup =>
    rcases stack with _ | ⟨v, s⟩
    · exact .underflow Nat.one_pos rfl
    · exact .executed _ (Nat.le_add_left 1 s.length) (fun _ h => by cases h) rfl rfl
  | swap =>
    rcases stack with _ | ⟨v, _ | ⟨w, s⟩⟩
    · exact .underflow Nat.two_pos rfl
    · exact .underflow Nat.one_lt_two rfl
    · exact .executed _ (Nat.le_add_left 2 s.length) (fun _ h => by cases h) rfl rfl
  | arith op =>
    rcases stack with _ | ⟨y, _ | ⟨x, s⟩⟩
    · exact .underflow Nat.two_pos rfl
    · exact .underflow Nat.one_lt_two rfl
    · have hdeep : 2 ≤ (y :: x :: s).length := Nat.le_add_left 2 s.length
      cases hv : x.apply op y with
      | error e =>
        have he : execute (.arith op) ⟨y :: x :: s, registers⟩ = .error e.exception := by
          simp only [execute, hv]
        cases e with
        | arithmetic e => exact .numeric (.arithmetic e) hdeep (fun _ h => by cases h) trivial he
        | signal conditions => exact .signal (.signal conditions) hdeep (fun _ h => by cases h) he
      | ok v =>
        refine .executed ⟨⟨v :: s, registers⟩, []⟩ hdeep (fun _ h => by cases h) ?_
          (by simp only [execute, hv])
        simp only [Kinds.step, Memory.kinds, List.map_cons, Value.kind_of_apply hv]
  | assert expected =>
    rcases stack with _ | ⟨v, s⟩
    · exact .underflow Nat.one_pos rfl
    · have hdeep : 1 ≤ (v :: s).length := Nat.le_add_left 1 s.length
      cases hv : v.equals expected with
      | error conditions =>
        exact .signal (.signal conditions) hdeep (fun _ h => by cases h) (by simp only [execute, hv])
      | ok equal =>
        cases equal with
        | true =>
          exact .executed ⟨⟨v :: s, registers⟩, []⟩ hdeep (fun _ h => by cases h) rfl
            (by simp only [execute, hv])
        | false =>
          exact .numeric (.assertionFailed expected v) hdeep (fun _ h => by cases h) trivial
            (by simp only [execute, hv])
  | load r =>
    cases hr : registers.get r with
    | none => exact .uninitialized r rfl hr (by simp only [execute, hr])
    | some v =>
      refine .executed ⟨⟨v :: stack, registers⟩, []⟩ (Nat.zero_le _) ?_ ?_ (by simp only [execute, hr])
      · rintro _ ⟨⟩
        simp [hr]
      · rw [Kinds.step, Memory.get_registers_kinds, hr]
        rfl
  | store r =>
    rcases stack with _ | ⟨v, s⟩
    · exact .underflow Nat.one_pos rfl
    · refine .executed _ (Nat.le_add_left 1 s.length) (fun _ h => by cases h) ?_ rfl
      simp only [Kinds.step, Memory.kinds, List.map_cons, Vector.map_set, Option.map_some]
  | print =>
    rcases stack with _ | ⟨v, s⟩
    · exact .underflow Nat.one_pos rfl
    · have hdeep : 1 ≤ (v :: s).length := Nat.le_add_left 1 s.length
      cases hc : v.printable? with
      | none =>
        exact .numeric (.notPrintable v) hdeep (fun _ h => by cases h) trivial
          (by simp only [execute, hc])
      | some c =>
        exact .executed ⟨⟨v :: s, registers⟩, [c.toString]⟩ hdeep (fun _ h => by cases h) rfl
          (by simp only [execute, hc])

/-- An instruction that succeeds does to the kinds what the analysis says. -/
theorem kinds_of_execute {i : Instruction} {m : Memory} {effect : Effect}
    (h : i.execute m = .ok effect) : m.kinds.step i = some effect.memory.kinds := by
  cases execute_cases i m with
  | underflow hshort he => rw [he] at h; cases h
  | uninitialized r hi hr he => rw [he] at h; cases h
  | numeric cause hdeep hi hc he => rw [he] at h; cases h
  | signal c hdeep hi he => rw [he] at h; cases h
  | executed effect' hdeep hload hk he =>
    rw [he] at h
    cases h
    exact hk

/-- An instruction underflows just when there are fewer values than it needs, whatever the values
are. It is checked before anything else is. -/
theorem underflow_iff {i : Instruction} {m : Memory} :
    (∃ cause, i.execute m = .error (.fault cause) ∧ cause.kind = "StackUnderflow")
      ↔ m.stack.length < i.opcode.needs := by
  cases execute_cases i m with
  | underflow hshort he => exact ⟨fun _ => hshort, fun _ => ⟨_, he, rfl⟩⟩
  | uninitialized r hi hr he =>
    subst hi
    simp [he, Fault.kind, opcode, Opcode.needs]
  | numeric cause hdeep hi hc he => simp [he, hc.kind_ne_underflow, hdeep]
  | signal c hdeep hi he => simp [he, hdeep]
  | executed effect hdeep hload hk he => simp [he, hdeep]

/-- The only instruction that finds a register uninitialised is a `load` of one that holds
nothing. -/
theorem uninitialized_iff {i : Instruction} {m : Memory} :
    (∃ cause, i.execute m = .error (.fault cause) ∧ cause.kind = "UninitializedRegister")
      ↔ ∃ r, i = .load r ∧ m.registers.get r = none := by
  cases execute_cases i m with
  | underflow hshort he =>
    -- a load needs nothing on the stack, so it cannot be short of it
    have hi : ∀ r, i ≠ .load r := by
      rintro r rfl
      exact Nat.not_lt_zero _ hshort
    simp [he, hi, Fault.kind]
  | uninitialized r hi hr he => exact ⟨fun _ => ⟨r, hi, hr⟩, fun _ => ⟨_, he, rfl⟩⟩
  | numeric cause hdeep hi hc he => simp [he, hi, hc.kind_ne_uninitialized]
  | signal c hdeep hi he => simp [he, hi]
  | executed effect hdeep hload hk he => simpa [he] using hload

end Instruction

/-! ## The simulation -/

namespace Process

/-- The kinds of the memory are those that the analysis has after the instructions before the
pointer. -/
def Analysed (prog : Program) (p : Process) : Prop :=
  p.program = prog ∧ Kinds.empty.after (prog.take p.ip) = some p.memory.kinds

/-- A process that moves past an instruction stays with the analysis. The prefix grows by the
instruction, so this is `after_concat`. -/
theorem Analysed.advance {prog : Program} {p : Process} (h : Analysed prog p) {i : Instruction}
    (hi : p.program[p.ip]? = some i) {effect : Effect} (he : i.execute p.memory = .ok effect)
    (status : Status) : Analysed prog (p.advance effect.memory status) := by
  obtain ⟨rfl, hafter⟩ := h
  refine ⟨rfl, ?_⟩
  show Kinds.empty.after (p.program.take (p.ip + 1)) = some effect.memory.kinds
  rw [List.take_add_one, hi, Option.toList_some, Kinds.after_concat, hafter, Option.bind_some]
  exact Instruction.kinds_of_execute he

/-- Every step keeps a process with the analysis; one that does not move on has nothing to keep up
with. -/
theorem Analysed.step {prog : Program} {p : Process} (h : Analysed prog p) (out : Sink) :
    Analysed prog (p.step out).process := by
  cases step_cases p out with
  | endOfProgram hi hr => rw [hr]; exact h
  | fault i cause hi he hr => rw [hr]; exact h
  | crash i c hi he hr => rw [hr]; exact h
  | sinkClosed i effect hi he hout hw hr => rw [hr]; exact h
  | exited i effect hi he hout hx hr => rw [hr]; exact h.advance hi he .exited
  | running i effect hi he hout hx hr => rw [hr]; exact h.advance hi he .running

/-- **The simulation.** At every pointer that a process reaches, its memory has the kinds that the
analysis finds for the instructions before it. Induction over the steps, from the empty memory. -/
theorem Reachable.analysed {prog : Program} {p : Process} (h : Reachable prog p) :
    Analysed prog p := by
  refine Reaches.induction h ⟨rfl, ?_⟩ fun _ out _ hq => hq.step out
  show some Kinds.empty = some Memory.empty.kinds
  rw [Memory.kinds_empty]

end Process

/-! ## Numbers make no difference

The analysis reads the kinds of the operands only. Programs that differ in their numbers only are the
same to it. -/

theorem IntKind.inRange_zero (k : IntKind) : k.InRange 0 := by
  cases k <;> decide

/-- The zero of a kind. -/
def Kind.zero : (k : Kind) → k.Number
  | .integer k => ⟨0, k.inRange_zero⟩
  | .floating _ => Binary.zero false
  | .bigdecimal => .finite false 0 0

/-- The instruction with zero in place of its number. -/
def Instruction.zeroed : Instruction → Instruction
  | .push v => .push ⟨v.kind, v.kind.zero⟩
  | .assert v => .assert ⟨v.kind, v.kind.zero⟩
  | i => i

theorem Instruction.opcode_zeroed (i : Instruction) : i.zeroed.opcode = i.opcode := by
  cases i <;> rfl

theorem Instruction.zeroed_eq_load {i : Instruction} {r : Register} :
    i.zeroed = .load r ↔ i = .load r := by
  cases i <;> simp [zeroed]

namespace Kinds

/-- The analysis does not look at the numbers that are pushed. -/
theorem step_zeroed (a : Kinds) (i : Instruction) : a.step i.zeroed = a.step i := by
  cases i <;> rfl

/-- Nor does it over a whole program. Induction over the program. -/
theorem after_map_zeroed (a : Kinds) (prog : Program) :
    a.after (prog.map Instruction.zeroed) = a.after prog := by
  induction prog generalizing a with
  | nil => rfl
  | cons i prog ih =>
    show (a.step i.zeroed).bind (·.after (prog.map Instruction.zeroed)) = (a.step i).bind (·.after prog)
    rw [step_zeroed]
    congr 1
    funext b
    exact ih b

end Kinds

namespace Program

/-- The analysis finds the stack too short for instruction number `n`. -/
def UnderflowsAt (prog : Program) (n : Nat) : Prop :=
  ∃ i a, prog[n]? = some i ∧ Kinds.empty.after (prog.take n) = some a
    ∧ a.stack.length < i.opcode.needs

/-- The analysis finds instruction number `n` to load a register that holds nothing. -/
def LoadsNothingAt (prog : Program) (n : Nat) : Prop :=
  ∃ r a, prog[n]? = some (.load r) ∧ Kinds.empty.after (prog.take n) = some a
    ∧ a.registers.get r = none

variable {prog prog' : Program} (h : prog'.map Instruction.zeroed = prog.map Instruction.zeroed)
include h

theorem after_take_eq (n : Nat) :
    Kinds.empty.after (prog'.take n) = Kinds.empty.after (prog.take n) := by
  rw [← Kinds.after_map_zeroed, ← Kinds.after_map_zeroed _ (prog.take n), List.map_take, h,
    ← List.map_take]

theorem zeroed_getElem?_eq (n : Nat) :
    prog'[n]?.map Instruction.zeroed = prog[n]?.map Instruction.zeroed := by
  rw [← List.getElem?_map, h, List.getElem?_map]

/-- Programs that are equal but for the numbers underflow at the same places. -/
theorem UnderflowsAt.of_zeroed_eq {n : Nat} (hn : prog.UnderflowsAt n) : prog'.UnderflowsAt n := by
  obtain ⟨i, a, hi, ha, hshort⟩ := hn
  have hz := zeroed_getElem?_eq h n
  rw [hi, Option.map_some, Option.map_eq_some_iff] at hz
  obtain ⟨j, hj, hji⟩ := hz
  refine ⟨j, a, hj, (after_take_eq h n).trans ha, ?_⟩
  rwa [← Instruction.opcode_zeroed, hji, Instruction.opcode_zeroed]

/-- And they load nothing at the same places. -/
theorem LoadsNothingAt.of_zeroed_eq {n : Nat} (hn : prog.LoadsNothingAt n) :
    prog'.LoadsNothingAt n := by
  obtain ⟨r, a, hi, ha, hempty⟩ := hn
  have hz := zeroed_getElem?_eq h n
  rw [hi, Option.map_some, Option.map_eq_some_iff] at hz
  obtain ⟨j, hj, hji⟩ := hz
  refine ⟨r, a, ?_, (after_take_eq h n).trans ha, hempty⟩
  rw [hj, Instruction.zeroed_eq_load.mp hji]

end Program

/-! ## The headline -/

namespace Process

/-- A call fails at the current instruction with an error of the given category. -/
def FailsHere (p : Process) (out : Sink) (budget : Int) (kind : String) : Prop :=
  ∃ f, (p.run out budget).outcome = .failed f ∧ f.ip? = some p.ip ∧ f.kind = kind

/-- The errors of a call at the current instruction are the faults of that instruction, or the end
of the program. -/
theorem failsHere_iff {p : Process} (hp : p.status = .running) (out : Sink) {budget : Int}
    (hb : 0 < budget) {kind : String} (hkind : kind ≠ "ProtocolError") :
    p.FailsHere out budget kind
      ↔ ∃ i cause, p.program[p.ip]? = some i ∧ i.execute p.memory = .error (.fault cause)
          ∧ cause.kind = kind := by
  constructor
  · rintro ⟨f, hf, hhere, rfl⟩
    have hstep := (run_fails_here_iff hp out hb f).mp ⟨hf, hhere⟩
    -- of all ways to end a step only the end of the program and a fault are failures
    cases step_cases p out with
    | endOfProgram hi hr => rw [hr] at hstep; cases hstep; exact absurd rfl hkind
    | fault i cause hi he hr => rw [hr] at hstep; cases hstep; exact ⟨i, cause, hi, he, rfl⟩
    | crash i c hi he hr => rw [hr] at hstep; cases hstep
    | sinkClosed i effect hi he hout hw hr => rw [hr] at hstep; cases hstep
    | exited i effect hi he hout hx hr => rw [hr] at hstep; cases hstep
    | running i effect hi he hout hx hr => rw [hr] at hstep; cases hstep
  · rintro ⟨i, cause, hi, he, rfl⟩
    have hstep : (p.step out).outcome = .failed (.fault p.ip i cause) := by
      rw [step_of_error hi he out]
      rfl
    obtain ⟨hf, hhere⟩ := (run_fails_here_iff hp out hb _).mpr hstep
    exact ⟨_, hf, hhere, rfl⟩

section

variable {prog : Program} {p : Process} (h : Analysed prog p) (hp : p.status = .running)
include h hp

/-- Where the stack is too short is known from the program: the analysis before the pointer has as
many kinds as the stack has values. -/
theorem Analysed.failsHere_underflow_iff (out : Sink) {budget : Int} (hb : 0 < budget) :
    p.FailsHere out budget "StackUnderflow" ↔ prog.UnderflowsAt p.ip := by
  obtain ⟨rfl, hafter⟩ := h
  rw [failsHere_iff hp out hb (by decide)]
  constructor
  · rintro ⟨i, cause, hi, he⟩
    have hshort := Instruction.underflow_iff.mp ⟨cause, he⟩
    exact ⟨i, p.memory.kinds, hi, hafter, by simpa using hshort⟩
  · rintro ⟨i, a, hi, ha, hshort⟩
    rw [hafter] at ha
    cases ha
    obtain ⟨cause, he⟩ := Instruction.underflow_iff.mpr (by simpa using hshort)
    exact ⟨i, cause, hi, he⟩

/-- Which loads find nothing is known from the program: a register has a kind in the analysis just
when it holds a value. -/
theorem Analysed.failsHere_uninitialized_iff (out : Sink) {budget : Int} (hb : 0 < budget) :
    p.FailsHere out budget "UninitializedRegister" ↔ prog.LoadsNothingAt p.ip := by
  obtain ⟨rfl, hafter⟩ := h
  rw [failsHere_iff hp out hb (by decide)]
  constructor
  · rintro ⟨i, cause, hi, he⟩
    obtain ⟨r, rfl, hr⟩ := Instruction.uninitialized_iff.mp ⟨cause, he⟩
    exact ⟨r, p.memory.kinds, hi, hafter, by simpa using hr⟩
  · rintro ⟨r, a, hi, ha, hempty⟩
    rw [hafter] at ha
    cases ha
    obtain ⟨cause, he⟩ := Instruction.uninitialized_iff.mpr ⟨r, rfl, by simpa using hempty⟩
    exact ⟨.load r, cause, hi, he⟩

end

/-- **The analysis of kinds is exact.** In every process that calls with any budgets lead to, the
kinds on the stack, in order, and in the registers are those that the analysis has after the
instructions before the pointer. When a call reaches an instruction, it fails there for want of
values if and only if the analysis has fewer kinds on its stack than the opcode needs, and at an
empty register if and only if the instruction loads a register that is empty in the analysis. So in
two programs that differ in their numbers only, these failures happen at the same places. -/
theorem kind_analysis_exact {prog : Program} {p : Process} (hp : Reachable prog p) :
    Kinds.empty.after (prog.take p.ip) = some p.memory.kinds
      ∧ (p.status = .running → ∀ (out : Sink) (budget : Int), 0 < budget →
          ∀ i a, prog[p.ip]? = some i → Kinds.empty.after (prog.take p.ip) = some a →
            (p.FailsHere out budget "StackUnderflow" ↔ a.stack.length < i.opcode.needs)
            ∧ (p.FailsHere out budget "UninitializedRegister"
                ↔ ∃ r, i = .load r ∧ a.registers.get r = none))
      ∧ ∀ (prog' : Program) (p' : Process), prog'.map Instruction.zeroed = prog.map Instruction.zeroed →
          Reachable prog' p' → p'.ip = p.ip → p.status = .running → p'.status = .running →
          ∀ (out out' : Sink) (budget budget' : Int), 0 < budget → 0 < budget' →
            (p.FailsHere out budget "StackUnderflow" ↔ p'.FailsHere out' budget' "StackUnderflow")
            ∧ (p.FailsHere out budget "UninitializedRegister"
                ↔ p'.FailsHere out' budget' "UninitializedRegister") := by
  have h := hp.analysed
  refine ⟨h.2, ?_, ?_⟩
  · intro hrun out budget hb i a hi ha
    rw [h.failsHere_underflow_iff hrun out hb, h.failsHere_uninitialized_iff hrun out hb]
    simp only [Program.UnderflowsAt, Program.LoadsNothingAt, hi, ha, Option.some.injEq,
      exists_and_left, exists_eq_left', and_self]
  · intro prog' p' hnumbers hp' hip hrun hrun' out out' budget budget' hb hb'
    have h' := hp'.analysed
    rw [h.failsHere_underflow_iff hrun out hb, h.failsHere_uninitialized_iff hrun out hb,
      h'.failsHere_underflow_iff hrun' out' hb', h'.failsHere_uninitialized_iff hrun' out' hb', hip]
    exact ⟨⟨.of_zeroed_eq hnumbers, .of_zeroed_eq hnumbers.symm⟩,
      ⟨.of_zeroed_eq hnumbers, .of_zeroed_eq hnumbers.symm⟩⟩

/-- A sum of two kinds goes to a register, and another register is loaded. With other numbers in the
program the load fails as well. -/
theorem kind_analysis_exact_mixed_sum :
    let full : Register := ⟨2, by decide⟩
    let bare : Register := ⟨3, by decide⟩
    let prog (m n : Int) (hm : IntKind.int8.InRange m) (hn : IntKind.int16.InRange n) : Program :=
      [.push (.ofInt .int8 m hm), .push (.ofInt .int16 n hn), .arith .add, .store full, .load bare]
    let small := prog 1 2 (by decide) (by decide)
    let large := prog (-128) 300 (by decide) (by decide)
    let p := (small.start.run .empty 4).process
    let q := ((large.start.run .empty 3).process.run .empty 1).process
    let kinds : Kinds := ⟨[], Kinds.empty.registers.set full (some (.integer .int16))⟩
    Reachable small p ∧ Reachable large q ∧ p.status = .running ∧ q.status = .running
      ∧ large.map Instruction.zeroed = small.map Instruction.zeroed ∧ p.memory.kinds = kinds
      ∧ p.FailsHere .empty 7 "UninitializedRegister" ∧ ¬ p.FailsHere .empty 7 "StackUnderflow"
      ∧ q.FailsHere .empty 1 "UninitializedRegister" := by
  intro full bare prog small large p q kinds
  have hp : Reachable small p := .run .refl .empty 4
  have hq : Reachable large q := .run (.run .refl .empty 3) .empty 1
  have hsame : large.map Instruction.zeroed = small.map Instruction.zeroed := rfl
  have hkinds : Kinds.empty.after (small.take p.ip) = some kinds := rfl
  obtain ⟨hafter, hfaults, hnumbers⟩ := kind_analysis_exact hp
  obtain ⟨hshort, hload⟩ := hfaults rfl .empty 7 (by decide) (.load bare) kinds rfl hkinds
  have huninit : p.FailsHere .empty 7 "UninitializedRegister" := hload.mpr ⟨bare, rfl, rfl⟩
  have hq' := hnumbers large q hsame hq rfl rfl rfl .empty .empty 7 1 (by decide) (by decide)
  exact ⟨hp, hq, rfl, rfl, hsame, Option.some.inj (hafter.symm.trans hkinds), huninit,
    fun h => Nat.not_lt_zero _ (hshort.mp h), hq'.2.mp huninit⟩

end Process

end StackMachine
