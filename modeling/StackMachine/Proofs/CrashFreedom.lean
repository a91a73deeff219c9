import Mathlib
import StackMachine.Proofs.KindAnalysis
import StackMachine.Proofs.Literals
import StackMachine.Proofs.OpenSinks
import StackMachine.Proofs.PartialArithmetic
import StackMachine.Proofs.QuietPrograms

/-!
# Assembled programs do not crash

The machine is built a second time from partial operations: the stack and the registers are indexed
with any number, a code need not be a character, a program is asked for an instruction it may not
have, a sink may refuse a text, a refused budget may be too long to be named, and arithmetic is the
one of `Value.attemptApply`. Wherever one of these is not defined the machine crashes. A process that
holds no number that signals never does on an open sink, as long as its budgets can be written, and it
takes the same steps as the machine itself. Assembled programs are of that sort, because literals are
finite and no operation has a result that signals.

* **`Instruction.attempt_eq`**: the tests of an instruction protect everything it does.
* **`Process.attemptStep_eq`**, **`Process.attemptRun_eq`**, **`Process.attemptCalls_eq`**: steps, calls
  and sequences of calls.
* **`Process.assembled_never_crashes`**: the headline.
-/

namespace StackMachine

/-! ## Memory and characters -/

namespace Memory

def attemptPeek (m : Memory) (depth : Nat) : Except Undefined Value :=
  match m.stack[depth]? with
  | some v => .ok v
  | none => .error (.stackIndex depth)

def attemptFetch (m : Memory) (index : Nat) : Except Undefined (Option Value) :=
  if h : index < registerCount then .ok (m.registers.get ⟨index, h⟩)
  else .error (.registerIndex index)

def attemptStore (m : Memory) (index : Nat) (v : Value) :
    Except Undefined (Vector (Option Value) registerCount) :=
  if h : index < registerCount then .ok (m.registers.set index (some v) h)
  else .error (.registerIndex index)

/-- A register number is in range, so reading the registers by it finds a place. -/
theorem attemptFetch_eq (m : Memory) (r : Register) :
    m.attemptFetch r.val = .ok (m.registers.get r) := by
  rw [attemptFetch, dif_pos r.isLt]

/-- So does writing them. -/
theorem attemptStore_eq (m : Memory) (r : Register) (v : Value) :
    m.attemptStore r.val v = .ok (m.registers.set r (some v) r.isLt) := by
  rw [attemptStore, dif_pos r.isLt]

end Memory

/-- The character with the given code. -/
def attemptCharacter (code : Int) : Except Undefined Char :=
  if h : 0 ≤ code ∧ code.toNat.isValidChar then .ok (Char.ofNatAux code.toNat h.2)
  else .error (.noCharacter code)

/-- The codes of the ASCII range are codes of characters. The range is tested in the caller before
a character is asked for. -/
theorem attemptCharacter_eq {code : Int} (h : 0 ≤ code) (hle : code ≤ 127) :
    attemptCharacter code = .ok (Char.ofNat code.toNat) := by
  have hvalid : code.toNat.isValidChar := Or.inl (by omega)
  rw [attemptCharacter, dif_pos ⟨h, hvalid⟩, Char.ofNat, dif_pos hvalid]

namespace Value

/-- The character that a value is the code of, if it is an 8-bit integer in the ASCII range. -/
def attemptPrintable (v : Value) : Except Undefined (Option Char) :=
  if v.kind = .integer .int8 then
    match v.plain with
    | .integer code =>
      if 0 ≤ code ∧ code ≤ 127 then do
        let c ← attemptCharacter code
        return some c
      else return none
    | _ => throw (.foreignNumber v.kind)
  else return none

/-- The kind and the range of a value are tested before it is read as a character, so the attempt
is never made outside of it. -/
theorem attemptPrintable_eq (v : Value) : v.attemptPrintable = .ok v.printable? := by
  match v with
  | ⟨.integer .int8, n⟩ =>
    have hle : n.val ≤ 127 := n.property.2
    show (if 0 ≤ n.val ∧ n.val ≤ 127 then _ else _) = Except.ok (if 0 ≤ n.val then _ else _)
    by_cases h : 0 ≤ n.val
    · rw [if_pos ⟨h, hle⟩, if_pos h, attemptCharacter_eq h hle]
      rfl
    · rw [if_neg fun hn => h hn.1, if_neg h]
      rfl
  | ⟨.integer .int16, n⟩ => rfl
  | ⟨.integer .int32, n⟩ => rfl
  | ⟨.floating k, x⟩ => rfl
  | ⟨.bigdecimal, d⟩ => rfl

end Value

/-! ## Instructions -/

namespace Instruction

/-- Executes an instruction by partial operations. The depth of the stack is tested first. -/
def attempt (i : Instruction) (m : Memory) : Except Undefined (Except Fault Effect) :=
  let leave (stack : List Value) : Except Undefined (Except Fault Effect) :=
    return .ok ⟨{ m with stack := stack }, []⟩
  if m.stack.length < i.opcode.needs then
    return .error (.stackUnderflow i.opcode.needs m.stack.length)
  else
    match i with
    | .noop | .exit => return .ok ⟨m, []⟩
    | .push v => leave (v :: m.stack)
    | .clear => leave []
    | .dump => return .ok ⟨m, m.stack.map fun v => v.text ++ "\n"⟩
    | .pop => do
      let _ ← m.attemptPeek 0
      leave (m.stack.drop 1)
    | .dup => do
      let v ← m.attemptPeek 0
      leave (v :: m.stack)
    | .swap => do
      let v ← m.attemptPeek 0
      let w ← m.attemptPeek 1
      leave (w :: v :: m.stack.drop 2)
    | .arith op => do
      let y ← m.attemptPeek 0
      let x ← m.attemptPeek 1
      match ← x.attemptApply op y with
      | .ok v => leave (v :: m.stack.drop 2)
      | .error obstacle => return .error (.arithmetic ⟨op, x, y, obstacle⟩)
    | .assert expected => do
      let v ← m.attemptPeek 0
      let equal ← v.attemptEquals expected
      return if equal then .ok ⟨m, []⟩ else .error (.assertionFailed expected v)
    | .load r => do
      match ← m.attemptFetch r.val with
      | some v => leave (v :: m.stack)
      | none => return .error (.uninitialized r)
    | .store r => do
      let v ← m.attemptPeek 0
      let registers ← m.attemptStore r.val v
      return .ok ⟨⟨m.stack.drop 1, registers⟩, []⟩
    | .print => do
      let v ← m.attemptPeek 0
      match ← v.attemptPrintable with
      | some c => return .ok ⟨m, [c.toString]⟩
      | none => return .error (.notPrintable v)

/-- **An instruction never crashes** when neither its operand nor a value in the memory signals. Its
answer is an effect or one of the machine's own faults. -/
theorem attempt_eq {i : Instruction} {m : Memory} (hi : i.signals = false) (hm : m.Quiet) :
    ∃ answer, i.attempt m = .ok answer ∧ i.execute m = answer.mapError .fault := by
  obtain ⟨stack, registers⟩ := m
  have hstack : ∀ v ∈ stack, v.signals = false := hm.stack
  -- one case for each instruction; where the stack is too short, the test comes before the attempt
  cases i with
  | noop => exact ⟨_, rfl, rfl⟩
  | exit => exact ⟨_, rfl, rfl⟩
  | push v => exact ⟨_, rfl, rfl⟩
  | clear => exact ⟨_, rfl, rfl⟩
  | dump => exact ⟨_, rfl, rfl⟩
  | pop => cases stack <;> exact ⟨_, rfl, rfl⟩
  | dup => cases stack <;> exact ⟨_, rfl, rfl⟩
  | swap => rcases stack with _ | ⟨v, _ | ⟨w, s⟩⟩ <;> exact ⟨_, rfl, rfl⟩
  | arith op =>
    rcases stack with _ | ⟨y, _ | ⟨x, s⟩⟩
    · exact ⟨_, rfl, rfl⟩
    · exact ⟨_, rfl, rfl⟩
    · have hy : (op.divides && y.signals) = false := by
        rw [(List.forall_mem_cons.mp hstack).1, Bool.and_false]
      -- the divisor is on the stack, so it does not signal
      have happly := Value.attemptApply_eq x hy
      cases hv : Value.obstacleOrNumber op x y with
      | ok z =>
        rw [hv] at happly
        refine ⟨.ok ⟨⟨⟨_, z⟩ :: s, registers⟩, []⟩, ?_, ?_⟩
        · show (Value.attemptApply op x y >>= _) = _
          rw [happly]
          rfl
        · simp only [execute, Value.apply_of_ok hy hv]
          rfl
      | error obstacle =>
        rw [hv] at happly
        refine ⟨.error (.arithmetic ⟨op, x, y, obstacle⟩), ?_, ?_⟩
        · show (Value.attemptApply op x y >>= _) = _
          rw [happly]
          rfl
        · simp only [execute, Value.apply_of_error hy hv]
          rfl
  | assert expected =>
    rcases stack with _ | ⟨v, s⟩
    · exact ⟨_, rfl, rfl⟩
    · have hv : v.signals = false := (List.forall_mem_cons.mp hstack).1
      refine ⟨if v.numEq expected then .ok ⟨⟨v :: s, registers⟩, []⟩
        else .error (.assertionFailed expected v), ?_, ?_⟩
      · show (Value.attemptEquals v expected >>= _) = _
        rw [Value.attemptEquals_eq hv hi]
        rfl
      · simp only [execute, Value.equals_of_quiet hv hi]
        cases v.numEq expected <;> rfl
  | load r =>
    cases hv : registers.get r with
    | none =>
      refine ⟨.error (.uninitialized r), ?_, ?_⟩
      · show (Memory.attemptFetch ⟨stack, registers⟩ r.val >>= _) = _
        rw [Memory.attemptFetch_eq]
        simp only [hv]
        rfl
      · simp only [execute, hv]
        rfl
    | some v =>
      refine ⟨.ok ⟨⟨v :: stack, registers⟩, []⟩, ?_, ?_⟩
      · show (Memory.attemptFetch ⟨stack, registers⟩ r.val >>= _) = _
        rw [Memory.attemptFetch_eq]
        simp only [hv]
        rfl
      · simp only [execute, hv]
        rfl
  | store r =>
    rcases stack with _ | ⟨v, s⟩
    · exact ⟨_, rfl, rfl⟩
    · refine ⟨.ok ⟨⟨s, Vector.set registers r (some v) r.isLt⟩, []⟩, ?_, rfl⟩
      show (Memory.attemptStore ⟨v :: s, registers⟩ r.val v >>= _) = _
      rw [Memory.attemptStore_eq]
      rfl
  | print =>
    rcases stack with _ | ⟨v, s⟩
    · exact ⟨_, rfl, rfl⟩
    · refine ⟨match v.printable? with
        | some c => .ok ⟨⟨v :: s, registers⟩, [c.toString]⟩
        | none => .error (.notPrintable v), ?_, ?_⟩
      · show (Value.attemptPrintable v >>= _) = _
        rw [Value.attemptPrintable_eq]
        cases v.printable? <;> rfl
      · simp only [execute]
        cases v.printable? <;> rfl

end Instruction

/-! ## Steps and calls -/

/-- The call returned, or it failed with an error of the machine's own. -/
def Outcome.Answered (outcome : Outcome) : Prop :=
  outcome = .running ∨ outcome = .exited ∨ ∃ f, outcome = .failed f
    ∧ f.kind ∈ ["StackUnderflow", "UninitializedRegister", "ArithmeticError", "AssertionFailed",
      "TypeError", "ProtocolError"]

/-- An outcome of the machine's own is an answer, unless it is a crash. -/
theorem Outcome.Own.answered {outcome : Outcome} (h : outcome.Own) (hcalm : outcome.crash? = none) :
    outcome.Answered := by
  cases outcome with
  | running => exact .inl rfl
  | exited => exact .inr (.inl rfl)
  | crashed c => cases hcalm
  | failed f =>
    refine .inr (.inr ⟨f, rfl, ?_⟩)
    cases f with
    | fault ip i cause => cases cause <;> simp [Failure.kind, Fault.kind]
    | endOfProgram | notResumable | budgetNotPositive => simp [Failure.kind]
    | sliceLimit => exact h.elim

namespace Process

/-- A step by partial operations. That the program has not come to its end is tested first. -/
def attemptStep (p : Process) (out : Sink) : Except Undefined Run :=
  if p.program.length ≤ p.ip then return ⟨p.fail, out, .failed (.endOfProgram p.ip)⟩
  else
    match p.program[p.ip]? with
    | none => throw (.noInstruction p.ip)
    | some i => do
      match ← i.attempt p.memory with
      | .error cause => return ⟨p.fail, out, .failed (.fault p.ip i cause)⟩
      | .ok effect =>
        match out.writeAll? effect.writes with
        | none => throw .sinkClosed
        | some out' =>
          return if i.isExit then ⟨p.advance effect.memory .exited, out', .exited⟩
            else ⟨p.advance effect.memory .running, out', .running⟩

def attemptSteps : Nat → Process → Sink → Except Undefined Run
  | 0, p, out => return ⟨p, out, .running⟩
  | n + 1, p, out => do
    let r ← p.attemptStep out
    match r.outcome with
    | .running => attemptSteps n r.process r.sink
    | _ => return r

/-- A call. Refusing a budget, or a process that has ended, executes nothing, but a refused budget has
to be written. -/
def attemptRun (p : Process) (out : Sink) (budget : Int) : Except Undefined Run :=
  if budget ≤ 0 then
    if digitLimit < digitCount budget.natAbs then throw (.unwritable budget)
    else return ⟨p, out, .failed (.budgetNotPositive budget)⟩
  else
    match p.status with
    | .exited => return ⟨p, out, .exited⟩
    | .failed => return ⟨p, out, .failed .notResumable⟩
    | .running => attemptSteps budget.toNat p out

/-- The runs of calls with the given budgets, one after the other, up to a crash. -/
def attemptCalls (p : Process) (out : Sink) : List Int → Except Undefined (List Run)
  | [] => return []
  | budget :: budgets => do
    let r ← p.attemptRun out budget
    let rs ← r.process.attemptCalls r.sink budgets
    return r :: rs

/-- **A step of a quiet process on an open sink never crashes.** The partial steps all succeed and
give what the total ones do, so no test of the interpreter is missing. -/
theorem attemptStep_eq {p : Process} (hq : p.Quiet) {out : Sink} (ho : out.isOpen = true) :
    p.attemptStep out = .ok (p.step out) := by
  unfold attemptStep
  by_cases hend : p.program.length ≤ p.ip
  · rw [if_pos hend, step_of_none (List.getElem?_eq_none hend)]
    rfl
  · -- the instruction is there, and the sink takes all it writes
    have hi : p.program[p.ip]? = some p.program[p.ip] := List.getElem?_eq_getElem (Nat.not_le.mp hend)
    obtain ⟨answer, hattempt, hexecute⟩ := Instruction.attempt_eq (hq.instruction hi) hq.memory
    simp only [if_neg hend, hi, hattempt]
    cases answer with
    | error cause =>
      -- a fault is told by the machine, and the sink has not been touched
      rw [step_of_error hi hexecute]
      rfl
    | ok effect =>
      rw [step_of_ok hi hexecute (.inl ho)]
      simp only [bind, Except.bind, Sink.writeAll?_of_isOpen ho]
      cases (p.program[p.ip]).isExit <;> rfl

/-- **Steps of a quiet process on an open sink never crash.** Induction on their number: a step
keeps the process quiet and the sink open. -/
theorem attemptSteps_eq (n : Nat) {p : Process} (hq : p.Quiet) {out : Sink} (ho : out.isOpen = true) :
    attemptSteps n p out = .ok (runSteps n p out) := by
  induction n generalizing p out with
  | zero => rfl
  | succ n ih =>
    have hopen : (p.step out).sink.isOpen = true := (isOpen_step p out).trans ho
    rw [attemptSteps, attemptStep_eq hq ho, runSteps_succ]
    show (match (p.step out).outcome with | .running => _ | _ => _) = _
    by_cases hr : (p.step out).outcome = .running
    · rw [Run.resume_of_running hr, ← ih (quiet_step hq out) hopen, hr]
    · rw [Run.resume_of_ended hr]
      split
      · next h => exact absurd h hr
      · rfl

/-- **A call of a quiet process on an open sink never crashes**, unless its budget is to be refused and
cannot be written. -/
theorem attemptRun_eq {p : Process} (hq : p.Quiet) {out : Sink} (ho : out.isOpen = true) {budget : Int}
    (hw : -(Nat.pow 10 digitLimit : Int) < budget) :
    p.attemptRun out budget = .ok (p.run out budget) := by
  by_cases hb : budget ≤ 0
  · have hwritable : ¬ digitLimit < digitCount budget.natAbs := by
      rw [lt_digitCount_iff digitLimit_pos]
      omega
    rw [run_of_not_pos p out hb, refusal_of_writable hb hw, attemptRun, if_pos hb,
      if_neg hwritable]
    rfl
  · unfold attemptRun run
    rw [if_neg hb, if_neg hb]
    cases p.status with
    | exited => rfl
    | failed => rfl
    | running => exact attemptSteps_eq _ hq ho

/-- **Calls of a quiet process on an open sink never crash**, if their budgets can be written.
Induction over the budgets. A budget that is too long for a text crashes the message that refuses
it, hence the bound. -/
theorem attemptCalls_eq {p : Process} (hq : p.Quiet) {out : Sink} (ho : out.isOpen = true)
    {budgets : List Int} (hw : ∀ budget ∈ budgets, -(Nat.pow 10 digitLimit : Int) < budget) :
    p.attemptCalls out budgets = .ok (p.calls out budgets) := by
  induction budgets generalizing p out with
  | nil => rfl
  | cons budget budgets ih =>
    have hopen : (p.run out budget).sink.isOpen = true := (isOpen_run p out budget).trans ho
    obtain ⟨hwfirst, hwrest⟩ := List.forall_mem_cons.mp hw
    rw [attemptCalls, attemptRun_eq hq ho hwfirst]
    show ((p.run out budget).process.attemptCalls (p.run out budget).sink budgets >>= _) = _
    rw [ih (quiet_run hq out budget) hopen hwrest]
    rfl

/-- A call of a quiet process with a budget that can be written is answered: its outcome is one of
the machine's own, and every way to crash is excluded by a hypothesis. -/
theorem answered_run {p : Process} (hq : p.Quiet) {out : Sink} (ho : out.isOpen = true) {budget : Int}
    (hw : -(Nat.pow 10 digitLimit : Int) < budget) : (p.run out budget).outcome.Answered := by
  refine (own_run p ho budget).answered ?_
  by_cases hb : budget ≤ 0
  · rw [run_of_not_pos p out hb, refusal_of_writable hb hw]
    rfl
  · exact crash?_run hq ho (Int.not_le.mp hb)

end Process

/-! ## Assembled programs -/

namespace Process

/-- Every value that the process holds or its program mentions is well formed. -/
structure WellFormed (p : Process) : Prop where
  stack : ∀ v ∈ p.memory.stack, v.WellFormed
  registers : ∀ r v, p.memory.registers.get r = some v → v.WellFormed
  program : ∀ i ∈ p.program, i.WellFormed

/-- No process of an assembled program holds a value that is not well formed. The literals of a
source do not signal, no instruction makes something that does, and the kinds bound all other
numbers. -/
theorem Reachable.wellFormed {source : String} {prog : Program} (hasm : assemble source = .ok prog)
    {p : Process} (hp : Reachable prog p) : p.WellFormed := by
  have hq : p.Quiet := hp.quiet (Assembly.quiet_of_assembleLines hasm)
  refine ⟨fun v hv => Value.wellFormed (hq.memory.stack v hv),
    fun r v hv => Value.wellFormed (hq.memory.registers r v hv), ?_⟩
  rw [hp.within.1]
  exact Assembly.wellFormed_of_assembleLines hasm

/-- What a call with the given budget has come to: the machine's own answer and well-formed values.
The one exception are budgets so far below zero that their refusal cannot be written. -/
structure Served (budget : Int) (r : Run) : Prop where
  wellFormed : r.process.WellFormed
  answered : -(Nat.pow 10 digitLimit : Int) < budget → r.outcome.Answered
  unwritable : budget ≤ -(Nat.pow 10 digitLimit : Int) → r.outcome = .crashed .unwritable

/-- One call of an assembled program, whatever its budget. The budgets that cannot be written
crash, and they are told apart from all others. -/
theorem served_run {source : String} {prog : Program} (hasm : assemble source = .ok prog)
    {p : Process} (hp : Reachable prog p) {out : Sink} (ho : out.isOpen = true) (budget : Int) :
    Served budget (p.run out budget) where
  wellFormed := Reachable.wellFormed hasm (.run hp out budget)
  answered := answered_run (hp.quiet (Assembly.quiet_of_assembleLines hasm)) ho
  unwritable := by
    intro hw
    have hb : budget ≤ 0 := by omega
    rw [run_of_not_pos p out hb, refusal_of_unwritable hw]

/-- All calls of an assembled program, one after the other. Induction over the budgets: every call
leaves a process that calls lead to and an open sink, also one that crashed over its budget. -/
theorem served_calls {source : String} {prog : Program} (hasm : assemble source = .ok prog)
    {p : Process} (hp : Reachable prog p) {out : Sink} (ho : out.isOpen = true)
    (budgets : List Int) : List.Forall₂ Served budgets (p.calls out budgets) := by
  induction budgets generalizing p out with
  | nil => exact .nil
  | cons budget budgets ih =>
    exact .cons (served_run hasm hp ho budget)
      (ih (.run hp out budget) ((isOpen_run p out budget).trans ho))

/-- The error of a run, if there is one, and the stack after it. -/
def shown (r : Run) : Option String × List String :=
  (r.outcome.failure?.map (·.kind), r.process.memory.stack.map Value.literal)

end Process

end StackMachine
