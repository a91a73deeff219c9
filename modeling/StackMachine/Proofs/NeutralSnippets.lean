import StackMachine.Proofs.Lifecycle
import StackMachine.Proofs.Lifetime

/-!
# Neutral snippets

Some short sequences of instructions leave the memory as they found it and write nothing. They can
be put into a program at any place that the program reaches, and nothing that follows notices: an
instruction does not see where it stands.

* **`Process.runSteps_moved`**: the simulation. A process that stands `n` places further on in a
  program with the same instructions there takes the same steps, `n` places further on.
* **`Process.runSteps_of_silent`**: what instructions do that write nothing and do not fail.
* **`Process.runSteps_insert`**: a run with the snippet is the run without it, moved by its length.
* **`Process.neutral_insertion`**: the headline.
-/

namespace StackMachine

/-! ## Moved processes -/

/-- The failure of the same instruction `n` places further on. -/
def Failure.moved (n : Nat) : Failure → Failure
  | .fault ip i cause => .fault (ip + n) i cause
  | .endOfProgram ip => .endOfProgram (ip + n)
  | f => f

def Outcome.moved (n : Nat) : Outcome → Outcome
  | .failed f => .failed (f.moved n)
  | outcome => outcome

/-- Moving an outcome changes where it failed, and not whether it is running. -/
theorem Outcome.moved_eq_running {n : Nat} {outcome : Outcome} :
    outcome.moved n = .running ↔ outcome = .running := by
  cases outcome <;> simp [moved]

/-- The process `n` steps and places further on, in another program. -/
def Process.moved (prog : Program) (n : Nat) (p : Process) : Process :=
  ⟨prog, p.memory, p.ip + n, p.steps + n, p.status⟩

def Run.moved (prog : Program) (n : Nat) (r : Run) : Run :=
  ⟨r.process.moved prog n, r.sink, r.outcome.moved n⟩

namespace Process

theorem moved_advance (prog : Program) (n : Nat) (p : Process) (memory : Memory) (status : Status) :
    (p.moved prog n).advance memory status = (p.advance memory status).moved prog n := by
  simp only [moved, advance, Nat.add_right_comm]

/-- **A moved step.** An instruction does the same wherever it stands. The hypothesis says that
the other program has the same instruction, or as little of one, at the moved place. -/
theorem step_moved {prog : Program} {n : Nat} {p : Process}
    (h : prog[p.ip + n]? = p.program[p.ip]?) (out : Sink) :
    (p.moved prog n).step out = (p.step out).moved prog n := by
  have hi' : (p.moved prog n).program[(p.moved prog n).ip]? = p.program[p.ip]? := h
  have hm : (p.moved prog n).memory = p.memory := rfl
  -- each way to end a step depends on the instruction, the memory and the sink, which are the same
  cases step_cases p out with
  | endOfProgram hi hr =>
    rw [hr, step_of_none (hi'.trans hi)]
    rfl
  | fault i cause hi he hr =>
    rw [hr, step_of_error (hi'.trans hi) (by rw [hm]; exact he)]
    rfl
  | crash i c hi he hr =>
    rw [hr, step_of_error (hi'.trans hi) (by rw [hm]; exact he)]
    rfl
  | sinkClosed i effect hi he hout hw hr =>
    rw [hr, step_of_closed (hi'.trans hi) (by rw [hm]; exact he) hout hw]
    rfl
  | exited i effect hi he hout hx hr =>
    rw [hr, step_of_ok (hi'.trans hi) (by rw [hm]; exact he) hout, hx, moved_advance]
    rfl
  | running i effect hi he hout hx hr =>
    rw [hr, step_of_ok (hi'.trans hi) (by rw [hm]; exact he) hout, hx, moved_advance]
    rfl

/-- A step that comes back running stays in its program and moves past one instruction. There are
no jumps, so this is all that can happen to the pointer. -/
theorem place_of_step {p : Process} {out : Sink} (h : (p.step out).outcome = .running) :
    (p.step out).process.program = p.program ∧ (p.step out).process.ip = p.ip + 1 := by
  obtain ⟨i, effect, -, -, -, hs⟩ := step_running h
  rw [hs]
  exact ⟨rfl, rfl⟩

/-- So do several steps, past as many instructions as there are steps. Induction on their number.
-/
theorem place_of_runSteps {k : Nat} {p : Process} {out : Sink}
    (h : (runSteps k p out).outcome = .running) :
    (runSteps k p out).process.program = p.program ∧ (runSteps k p out).process.ip = p.ip + k := by
  induction k generalizing p out with
  | zero => exact ⟨rfl, rfl⟩
  | succ k ih =>
    rw [runSteps_succ] at h ⊢
    by_cases hr : (p.step out).outcome = .running
    · obtain ⟨hprog, hip⟩ := place_of_step hr
      rw [Run.resume_of_running hr] at h ⊢
      obtain ⟨hprog', hip'⟩ := ih h
      exact ⟨hprog'.trans hprog, by omega⟩
    · rw [Run.resume_of_ended hr] at h
      exact absurd h hr

/-- **Moved steps.** The two programs need to have the same instructions only where the process comes
by. -/
theorem runSteps_moved {prog : Program} {n : Nat} (k : Nat) {p : Process}
    (h : ∀ j, p.ip ≤ j → j < p.ip + k → prog[j + n]? = p.program[j]?) (out : Sink) :
    runSteps k (p.moved prog n) out = (runSteps k p out).moved prog n := by
  -- on the steps; the next one is a place further on in both programs
  induction k generalizing p out with
  | zero => rfl
  | succ k ih =>
    have hnow := step_moved (h p.ip (Nat.le_refl _) (by omega)) out
    rw [runSteps_succ, runSteps_succ, hnow]
    by_cases hr : (p.step out).outcome = .running
    · have hr' : ((p.step out).moved prog n).outcome = .running := Outcome.moved_eq_running.mpr hr
      obtain ⟨hprog, hip⟩ := place_of_step hr
      rw [Run.resume_of_running hr, Run.resume_of_running hr']
      refine ih (p := (p.step out).process) ?_ (p.step out).sink
      intro j hle hlt
      rw [hprog]
      exact h j (by omega) (by omega)
    · have hr' : ((p.step out).moved prog n).outcome ≠ .running :=
        fun h => hr (Outcome.moved_eq_running.mp h)
      rw [Run.resume_of_ended hr, Run.resume_of_ended hr']

end Process

/-! ## Silent instructions -/

/-- The instructions can be executed one after the other, write nothing, do not exit, and turn one
memory into the other. -/
inductive Silent : Program → Memory → Memory → Prop where
  | nil (m : Memory) : Silent [] m m
  | cons {i : Instruction} {rest : Program} {m m' m'' : Memory} (he : i.execute m = .ok ⟨m', []⟩)
      (hx : i.isExit = false) (h : Silent rest m' m'') : Silent (i :: rest) m m''

namespace Process

/-- A step over an instruction that writes nothing and does not exit: the sink is as it was, open
or not. -/
theorem step_of_silent {p : Process} {i : Instruction} {m : Memory} (hi : p.program[p.ip]? = some i)
    (he : i.execute p.memory = .ok ⟨m, []⟩) (hx : i.isExit = false) (out : Sink) :
    p.step out = ⟨p.advance m .running, out, .running⟩ := by
  rw [step_of_ok hi he (Or.inr rfl), hx, String.join_nil, Sink.append_empty]
  rfl

/-- Silent instructions are executed to their end, whatever the sink is like. Induction on them;
the program has to hold them from the pointer on. -/
theorem runSteps_of_silent {snippet : Program} {m m' : Memory} (h : Silent snippet m m')
    {p : Process} (hm : p.memory = m) (hp : p.status = .running)
    (hsnippet : ∀ j < snippet.length, p.program[p.ip + j]? = snippet[j]?) (out : Sink) :
    runSteps snippet.length p out
      = ⟨⟨p.program, m', p.ip + snippet.length, p.steps + snippet.length, .running⟩, out,
          .running⟩ := by
  induction h generalizing p with
  | nil m =>
    subst hm
    rw [← hp]
    rfl
  | @cons i rest m m' m'' he hx _ ih =>
    subst hm
    have hi : p.program[p.ip]? = some i := hsnippet 0 (Nat.zero_lt_succ _)
    have hrest : ∀ j < rest.length, p.program[p.ip + 1 + j]? = rest[j]? := by
      intro j hj
      rw [Nat.add_right_comm, Nat.add_assoc]
      exact hsnippet (j + 1) (Nat.succ_lt_succ hj)
    rw [List.length_cons, runSteps_succ, step_of_silent hi he hx, Run.resume_of_running rfl,
      ih (p := p.advance m' .running) rfl rfl hrest]
    simp only [advance, Nat.add_assoc, Nat.add_comm 1]

end Process

/-! ## Neutral snippets -/

/-- The snippets that do nothing where at least `depth` values are on the stack. -/
inductive Neutral (depth : Nat) : Program → Prop where
  | noop : Neutral depth [.noop]
  | pushPop (v : Value) : Neutral depth [.push v, .pop]
  | dupPop (h : 1 ≤ depth) : Neutral depth [.dup, .pop]
  | swapSwap (h : 2 ≤ depth) : Neutral depth [.swap, .swap]

/-- A neutral snippet gives the memory back as it was. One case for each way to build one; what it
needs of the depth of the stack is what its instructions need in order not to underflow. -/
theorem Neutral.silent {snippet : Program} {m : Memory} (h : Neutral m.stack.length snippet) :
    Silent snippet m m := by
  obtain ⟨stack, registers⟩ := m
  cases h with
  | noop => exact .cons rfl rfl (.nil _)
  | pushPop v => exact .cons rfl rfl (.cons rfl rfl (.nil _))
  | dupPop hdepth =>
    rcases stack with _ | ⟨v, s⟩
    · cases hdepth
    · exact .cons rfl rfl (.cons rfl rfl (.nil _))
  | swapSwap hdepth =>
    rcases stack with _ | ⟨v, _ | ⟨w, s⟩⟩
    · cases hdepth
    · exact absurd hdepth (by simp)
    · exact .cons rfl rfl (.cons rfl rfl (.nil _))

namespace Process

section

variable {front back snippet : Program} {out : Sink}

/-- A program that is executed completely is so in front of any other. It does not get to the
instructions behind it. -/
theorem runSteps_front (hfront : (runSteps front.length front.start out).outcome = .running)
    (rest : Program) :
    runSteps front.length (front ++ rest).start out
      = ⟨(runSteps front.length front.start out).process.moved (front ++ rest) 0,
          (runSteps front.length front.start out).sink, .running⟩ := by
  have hsame : ∀ j, front.start.ip ≤ j → j < front.start.ip + front.length →
      (front ++ rest)[j + 0]? = front.start.program[j]? :=
    fun j _ hj => List.getElem?_append_left (by simpa [Program.start] using hj)
  have hmoved := runSteps_moved front.length hsame out
  rw [show (front ++ rest).start = front.start.moved (front ++ rest) 0 from rfl, hmoved, Run.moved,
    hfront]
  rfl

/-- Where the front has led, the snippet is executed and leads to the process that never saw it,
moved by its length. -/
theorem runSteps_snippet {p : Process} (hp : p.status = .running) (hip : p.ip = front.length)
    (hneutral : Neutral p.memory.stack.length snippet) (back : Program) (out : Sink) :
    runSteps snippet.length (p.moved (front ++ snippet ++ back) 0) out
      = ⟨(p.moved (front ++ back) 0).moved (front ++ snippet ++ back) snippet.length, out,
          .running⟩ := by
  have hthere : ∀ j < snippet.length,
      (front ++ snippet ++ back)[p.ip + j]? = snippet[j]? := by
    intro j hj
    rw [hip, List.append_assoc, List.getElem?_append_right (by omega), Nat.add_sub_cancel_left,
      List.getElem?_append_left hj]
  rw [runSteps_of_silent hneutral.silent (p := p.moved (front ++ snippet ++ back) 0) rfl hp hthere,
    ← hp]
  rfl

/-- Behind the snippet the instructions are those of the program without it, as many places
further on as the snippet is long. -/
theorem getElem?_behind (front snippet back : Program) {j : Nat} (hj : front.length ≤ j) :
    (front ++ snippet ++ back)[j + snippet.length]? = (front ++ back)[j]? := by
  have hlength : (front ++ snippet).length = front.length + snippet.length := List.length_append
  rw [List.getElem?_append_right (by omega), List.getElem?_append_right hj, hlength,
    Nat.add_sub_add_right]

/-- **A run with the snippet in it** is the run without it, moved by its length. It is put
together from the front, the snippet and what stands behind it, which `runSteps_moved` takes to
its place. -/
theorem runSteps_insert (hfront : (runSteps front.length front.start out).outcome = .running)
    (hneutral : Neutral (runSteps front.length front.start out).process.memory.stack.length snippet)
    (k : Nat) :
    runSteps (front.length + (snippet.length + k)) (front ++ snippet ++ back).start out
      = (runSteps (front.length + k) (front ++ back).start out).moved (front ++ snippet ++ back)
          snippet.length := by
  have hwith := runSteps_front hfront (snippet ++ back)
  have hwithout := runSteps_front hfront back
  rw [← List.append_assoc] at hwith
  have hip := (place_of_runSteps hfront).2.trans (Nat.zero_add _)
  have hsnippet := runSteps_snippet (status_runSteps rfl hfront) hip hneutral back
  generalize runSteps front.length front.start out = r at *
  -- up to the snippet both runs are that of the front, and behind it they go on alike
  rw [runSteps_add, hwith, Run.resume_of_running rfl, runSteps_add, hsnippet,
    Run.resume_of_running rfl, runSteps_add, hwithout, Run.resume_of_running rfl]
  refine runSteps_moved k ?_ r.sink
  intro j hj _
  exact getElem?_behind front snippet back (hip ▸ hj)

end

/-! ## The headline -/

/-- A run that ends with a failure fails where its process stands. Induction on the steps to the
end. The insertion tells from it whether a failure lies in front of the snippet or behind it. -/
theorem Ends.ip?_eq {p : Process} {out : Sink} {n : Nat} {r : Run} (h : Ends p out n r) {f : Failure}
    (hf : r.outcome = .failed f) : f.ip? = some r.process.ip := by
  induction h with
  | step _ _ ih => exact ih hf
  | @last p out hended =>
    cases step_cases p out with
    | endOfProgram hi hr => rw [hr] at hf ⊢; cases hf; rfl
    | fault i cause hi he hr => rw [hr] at hf ⊢; cases hf; rfl
    | crash i c hi he hr => rw [hr] at hf; cases hf
    | sinkClosed i effect hi he hout hw hr => rw [hr] at hf; cases hf
    | exited i effect hi he hout hx hr => rw [hr] at hf; cases hf
    | running i effect hi he hout hx hr => rw [hr] at hended; exact absurd rfl hended

end Process

/-- The two failures have the same kind, and messages that differ in nothing but the instruction
pointer, which is larger by `n` in the second. -/
def Failure.SameBut (n : Nat) (f g : Failure) : Prop :=
  g.kind = f.kind ∧ ∃ (ip : Nat) (before after : String),
    f.ip? = some ip ∧ g.ip? = some (ip + n)
      ∧ f.message = before ++ toString ip ++ after
      ∧ g.message = before ++ toString (ip + n) ++ after

/-- The message of a fault, cut where the instruction pointer stands. The two parts around it are
the same for a moved failure. -/
theorem Failure.message_fault (ip : Nat) (i : Instruction) (cause : Fault) :
    message (.fault ip i cause) = cause.message ++ " (at " ++ toString ip ++ (": " ++ i.text ++ ")") := by
  rw [Process.fault_message]
  show cause.message ++ (" (at " ++ toString ip ++ ": " ++ i.text ++ ")") = _
  simp only [String.append_assoc]

/-- A moved failure is the same but for the pointer, in its place and in its message. -/
theorem Failure.sameBut_moved {f : Failure} {ip : Nat} (h : f.ip? = some ip) (n : Nat) :
    f.SameBut n (f.moved n) := by
  cases f with
  | fault ip i cause =>
    cases h
    exact ⟨rfl, ip, _, _, rfl, rfl, message_fault ip i cause, message_fault (ip + n) i cause⟩
  | endOfProgram ip =>
    cases h
    exact ⟨rfl, ip, "reached end of program without exiting (at ", ")", rfl, rfl, rfl, rfl⟩
  | notResumable => cases h
  | budgetNotPositive budget => cases h
  | sliceLimit slices => cases h

namespace Process

/-- **Neutral snippets can be inserted anywhere.** Let `front` be executed completely from the start,
without exit or failure, and `snippet` be neutral at the depth that the stack has then. With or
without the snippet between `front` and any `back`, the program comes to the same end: both exit, or
both fail with the same error but for the instruction pointer, or both crash on the same number that
signals, which the program must hold. The memory and the sink are the same,
and steps and instruction pointer are larger by the length of the snippet. The budgets are any that
are long enough to come to the end. -/
theorem neutral_insertion {front snippet back : Program} {out : Sink} (ho : out.isOpen = true)
    (hfront : (runSteps front.length front.start out).outcome = .running)
    (hneutral : Neutral (runSteps front.length front.start out).process.memory.stack.length snippet)
    {a b : Int} (ha : (front ++ back).length < a) (hb : (front ++ snippet ++ back).length < b) :
    let without := (front ++ back).start.run out a
    let inserted := (front ++ snippet ++ back).start.run out b
    ((without.outcome = .exited ∧ inserted.outcome = .exited)
        ∨ (∃ f g, without.outcome = .failed f ∧ inserted.outcome = .failed g
          ∧ f.SameBut snippet.length g)
        ∨ (¬ (front ++ back).Quiet
          ∧ ∃ c, without.outcome = .crashed c ∧ inserted.outcome = .crashed c))
      ∧ inserted.process.memory.stack = without.process.memory.stack
      ∧ inserted.process.memory.registers = without.process.memory.registers
      ∧ inserted.process.status = without.process.status
      ∧ inserted.sink = without.sink
      ∧ inserted.process.steps = without.process.steps + snippet.length
      ∧ inserted.process.ip = without.process.ip + snippet.length := by
  intro without inserted
  obtain ⟨n, r, hn, hends⟩ := exists_ends (front ++ back).start out
  have hn : n ≤ (front ++ back).length + 1 := hn
  have hlength : (front ++ snippet ++ back).length
      = front.length + snippet.length + back.length := by
    rw [List.length_append, List.length_append]
  rw [List.length_append] at ha hn
  -- both budgets are long enough for the program to come to its end
  have hwithout : without = r := by
    rw [show without = runSteps a.toNat _ out from run_of_running rfl out (by omega)]
    exact hends.runSteps_of_le (by omega)
  obtain ⟨k, hk⟩ : ∃ k, b.toNat = front.length + (snippet.length + k) :=
    ⟨b.toNat - (front.length + snippet.length), by omega⟩
  -- after the insertion the same end is reached, moved by the snippet
  have hinserted : inserted = r.moved (front ++ snippet ++ back) snippet.length := by
    rw [show inserted = runSteps b.toNat _ out from run_of_running rfl out (by omega), hk,
      runSteps_insert hfront hneutral, hends.runSteps_of_le (by omega)]
  rw [hwithout, hinserted]
  refine ⟨?_, rfl, rfl, rfl, rfl, rfl, rfl⟩
  rw [Run.moved]
  cases houtcome : r.outcome with
  | running => exact absurd houtcome hends.outcome_ne
  | exited => exact Or.inl ⟨rfl, rfl⟩
  | failed f =>
    exact Or.inr (Or.inl ⟨f, f.moved snippet.length, rfl, rfl,
      Failure.sameBut_moved (hends.ip?_eq houtcome) _⟩)
  | crashed c =>
    -- a quiet program on an open sink does not crash
    refine Or.inr (Or.inr ⟨fun hq => ?_, c, rfl, rfl⟩)
    rcases hends.exited_or_failed ho (quiet_start hq) with hx | ⟨f, hf⟩
    · rw [houtcome] at hx; cases hx
    · rw [houtcome] at hf; cases hf

/-- Two swaps in front of a division by zero. The division fails two places further on, and what was
printed before is printed still. -/
theorem neutral_insertion_failing_division :
    let front : Program :=
      [.push (.ofInt .int8 65 (by decide)), .print, .push (.ofInt .int8 0 (by decide))]
    let snippet : Program := [.swap, .swap]
    let back : Program := [.arith .div, .exit]
    let without := (front ++ back).start.run .empty 6
    let inserted := (front ++ snippet ++ back).start.run .empty 8
    Sink.empty.isOpen = true ∧ (runSteps front.length front.start .empty).outcome = .running
      ∧ Neutral (runSteps front.length front.start .empty).process.memory.stack.length snippet
      ∧ (∃ f g, without.outcome = .failed f ∧ inserted.outcome = .failed g ∧ f.SameBut 2 g)
      ∧ without.process.ip = 3 ∧ inserted.process.ip = 5 ∧ inserted.process.steps = 5
      ∧ inserted.process.memory.stack = without.process.memory.stack
      ∧ inserted.sink.text = "A" := by
  intro front snippet back without inserted
  have hfront : (runSteps front.length front.start .empty).outcome = .running := by decide
  have hneutral : Neutral (runSteps front.length front.start .empty).process.memory.stack.length
      snippet := .swapSwap (by decide)
  have hip : without.process.ip = 3 := by decide
  have hsteps : without.process.steps = 3 := by decide
  have htext : without.sink.text = "A" := by decide
  have hfails : without.outcome ≠ .exited := by decide
  have ha : ((front ++ back).length : Int) < 6 := by decide
  have hb : ((front ++ snippet ++ back).length : Int) < 8 := by decide
  obtain ⟨hend, hstack, -, -, hsink, hsteps', hip'⟩ := neutral_insertion rfl hfront hneutral ha hb
  refine ⟨rfl, hfront, hneutral, ?_, hip, ?_, ?_, ?_, ?_⟩
  · exact (hend.resolve_left fun h => hfails h.1).resolve_right fun h => h.1 (by decide)
  · rw [hip', hip]
    rfl
  · rw [hsteps', hsteps]
    rfl
  · rw [hstack]
  · rw [hsink, htext]

end Process

end StackMachine
