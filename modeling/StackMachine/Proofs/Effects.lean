import StackMachine.Handler

/-!
# Handlers are transactions

A handler acts on its stage in place, and what it has done when it raises something stays done. So
nothing in the definition of `Instruction.handle` says that an instruction takes effect as a whole; it
is a matter of the order in which every single handler tests and acts. This file says what each
instruction does in one piece, and proves that this is what its handler does.

* **`Instruction.execute`**: the effect of an instruction on a memory, computed without changing
  anything: what it raises, or the memory that it leaves and the pieces of text that it writes.
* **`Instruction.transact`**: the effect first, then all changes together.
* **`Instruction.handle_eq_transact`**: every handler is this transaction. The proof has one case for
  each instruction; the only loop, that of `dump`, is followed by
  `Handler.forM_emit_of_isOpen`.

Everything about steps and runs is proved from `execute`; no later proof opens a handler again.
-/

namespace StackMachine

/-! ## Writing to a sink

A write never opens or closes a sink. So the first of several pieces decides: if it can be written,
all the others can. -/

namespace Sink

/-- The sink with more text at its end. -/
def append (s : Sink) (text : String) : Sink :=
  { s with text := s.text ++ text }

@[simp] theorem text_append (s : Sink) (text : String) : (s.append text).text = s.text ++ text :=
  rfl

@[simp] theorem isOpen_append (s : Sink) (text : String) : (s.append text).isOpen = s.isOpen :=
  rfl

@[simp] theorem append_empty (s : Sink) : s.append "" = s := by
  simp [append]

/-- Texts that are written one after the other are one text. Runs are cut into calls and slices,
and this puts what the parts have written together again. -/
@[simp] theorem append_append (s : Sink) (t u : String) :
    (s.append t).append u = s.append (t ++ u) := by
  simp [append, String.append_assoc]

@[simp] theorem text_empty : empty.text = "" := rfl

@[simp] theorem isOpen_empty : empty.isOpen = true := rfl

/-- An open sink takes any piece of text, and stays open. -/
theorem write?_of_isOpen {s : Sink} (h : s.isOpen = true) (piece : String) :
    s.write? piece = some (s.append piece) := by
  simp [write?, h, append]

/-- A closed sink takes nothing, not even the empty text: this is what makes an instruction that
writes fail there. -/
theorem write?_of_closed {s : Sink} (h : s.isOpen = false) (piece : String) :
    s.write? piece = none := by
  simp [write?, h]

/-- Writes the pieces of text one after the other, and fails at the first that is refused. -/
def writeAll? (s : Sink) : List String → Option Sink
  | [] => some s
  | piece :: pieces => (s.write? piece).bind (·.writeAll? pieces)

/-- An open sink takes all pieces. The induction is on the pieces: each of them leaves the sink
open for the next one. -/
theorem writeAll?_of_isOpen {s : Sink} (h : s.isOpen = true) (pieces : List String) :
    s.writeAll? pieces = some (s.append (String.join pieces)) := by
  induction pieces generalizing s with
  | nil => simp [writeAll?]
  | cons piece pieces ih =>
    -- the write leaves the sink open for the pieces after it
    rw [writeAll?, write?_of_isOpen h, Option.bind_some, ih (by simpa using h), append_append,
      String.join_cons]

/-- A closed sink refuses the first piece, if there is any. -/
theorem writeAll?_of_closed {s : Sink} (h : s.isOpen = false) {pieces : List String}
    (hp : pieces ≠ []) : s.writeAll? pieces = none := by
  cases pieces with
  | nil => exact absurd rfl hp
  | cons piece pieces =>
    -- the first piece is refused already
    rw [writeAll?, write?_of_closed h, Option.bind_none]

/-- Pieces are taken if the sink is open, and if there are none. In both cases the sink is left
with their text, which is empty in the second one. -/
theorem writeAll?_of_takes {s : Sink} {pieces : List String} (h : s.isOpen = true ∨ pieces = []) :
    s.writeAll? pieces = some (s.append (String.join pieces)) := by
  rcases h with ho | rfl
  · exact writeAll?_of_isOpen ho pieces
  · simp [writeAll?]

end Sink

/-! ## Effects -/

/-- What an executed instruction leaves: a new memory, and the pieces of text to write. -/
structure Effect where
  memory : Memory
  writes : List String := []
deriving DecidableEq

namespace Instruction

/-- The effect of an instruction on a memory, or what it raises there. The cases are those of the
instruction and of the depth of the stack that it needs. -/
def execute (i : Instruction) (m : Memory) : Except Exception Effect :=
  let underflow (needed : Nat) : Except Exception Effect :=
    .error (.fault (.stackUnderflow needed m.stack.length))
  let leave (stack : List Value) : Except Exception Effect := .ok ⟨{ m with stack := stack }, []⟩
  match i, m.stack with
  | .noop, _ => .ok ⟨m, []⟩
  | .exit, _ => .ok ⟨m, []⟩
  | .push v, s => leave (v :: s)
  | .clear, _ => leave []
  | .dump, s => .ok ⟨m, s.map fun v => v.text ++ "\n"⟩
  | .pop, _ :: s => leave s
  | .pop, [] => underflow 1
  | .dup, v :: s => leave (v :: v :: s)
  | .dup, [] => underflow 1
  | .swap, v :: w :: s => leave (w :: v :: s)
  | .swap, _ => underflow 2
  | .arith op, y :: x :: s =>
    match x.apply op y with
    | .ok v => leave (v :: s)
    | .error e => .error e.exception
  | .arith _, _ => underflow 2
  | .assert expected, v :: _ =>
    match v.equals expected with
    | .ok true => .ok ⟨m, []⟩
    | .ok false => .error (.fault (.assertionFailed expected v))
    | .error conditions => .error (.crash (.signal conditions))
  | .assert _, [] => underflow 1
  | .load r, s =>
    match m.registers.get r with
    | some v => leave (v :: s)
    | none => .error (.fault (.uninitialized r))
  | .store r, v :: s => .ok ⟨⟨s, Vector.set m.registers r (some v) r.isLt⟩, []⟩
  | .store _, [] => underflow 1
  | .print, v :: _ =>
    match v.printable? with
    | some c => .ok ⟨m, [c.toString]⟩
    | none => .error (.fault (.notPrintable v))
  | .print, [] => underflow 1

def isExit : Instruction → Bool
  | .exit => true
  | _ => false

/-- The only crash that an instruction brings about by itself is that of a number that signals, when
two values are computed with or one is compared with the expected one. -/
theorem execute_crash {i : Instruction} {m : Memory} {c : Crash}
    (h : i.execute m = .error (.crash c)) :
    ∃ conditions, c = .signal conditions
      ∧ ((∃ op y x s, i = .arith op ∧ m.stack = y :: x :: s
            ∧ x.apply op y = .error (.signal conditions))
        ∨ ∃ expected v s, i = .assert expected ∧ m.stack = v :: s
            ∧ v.equals expected = .error conditions) := by
  unfold execute at h
  split at h
  -- arithmetic on two values, where the divisor may signal
  case h_12 op y x s hstack =>
    cases hv : x.apply op y with
    | ok v => simp [hv] at h
    | error e =>
      cases e with
      | arithmetic e => simp [hv, Value.Raised.exception] at h
      | signal conditions =>
        simp only [hv, Value.Raised.exception, Except.error.injEq, Exception.crash.injEq] at h
        exact ⟨conditions, h.symm, Or.inl ⟨op, y, x, s, rfl, hstack, hv⟩⟩
  -- an assertion, where either of the compared values may
  case h_14 expected v s hstack =>
    cases hv : v.equals expected with
    | ok equal => cases equal <;> simp [hv] at h
    | error conditions =>
      simp only [hv, Except.error.injEq, Exception.crash.injEq] at h
      exact ⟨conditions, h.symm, Or.inr ⟨expected, v, s, rfl, hstack, hv⟩⟩
  all_goals first | cases h | (split at h <;> cases h)

/-- The instruction as a transaction: its effect is computed first, and then its text is written and
the stage is changed, all or nothing. -/
def transact (i : Instruction) : Handler Unit := fun stage =>
  match i.execute stage.memory with
  | .error e => .error e stage
  | .ok effect =>
    match stage.sink.writeAll? effect.writes with
    | none => .error (.crash .sinkClosed) stage
    | some sink => .ok () ⟨effect.memory, if i.isExit then .exited else stage.status, sink⟩

end Instruction

/-! ## What the actions do

One lemma for each action and each way in which it can end, on a stage whose parts are written out.
The two lemmas on sequences are the rules by which the handlers are followed. -/

namespace Handler

section
variable {α β : Type} {x : Handler α} {f : α → Handler β} {s s' : Stage}

/-- After an action that has returned, the next one starts where it has left the stage. Handlers
are followed action by action with this lemma. -/
theorem bind_of_ok {a : α} (h : x s = .ok a s') : (x >>= f) s = f a s' := by
  show EStateM.bind x f s = f a s'
  simp only [EStateM.bind, h]

/-- After an action that has raised something, the stage stays as it is; the actions that would
have followed do not take place. -/
theorem bind_of_error {e : Exception} (h : x s = .error e s') : (x >>= f) s = .error e s' := by
  show EStateM.bind x f s = .error e s'
  simp only [EStateM.bind, h]

end

variable (stack : List Value) (registers : Vector (Option Value) registerCount) (status : Status)
  (sink : Sink)

/-- A handler goes on if there are enough values. The stage is the same, so nothing was done
before this test. -/
theorem require_bind {depth : Nat} {f : Unit → Handler Unit} (h : depth ≤ stack.length) :
    (require depth >>= f) ⟨⟨stack, registers⟩, status, sink⟩
      = f () ⟨⟨stack, registers⟩, status, sink⟩ := by
  apply bind_of_ok
  show (if stack.length < depth then _ else _ : Handler Unit) _ = _
  rw [if_neg (Nat.not_lt.mpr h)]
  rfl

/-- A value of the stack is replaced in its place, if there is one at that depth. -/
theorem poke_of_lt {depth : Nat} (v : Value) (h : depth < stack.length) :
    poke depth v ⟨⟨stack, registers⟩, status, sink⟩
      = .ok () ⟨⟨stack.set depth v, registers⟩, status, sink⟩ := by
  show (if depth < stack.length then _ else _ : Handler Unit) _ = _
  rw [if_pos h]
  rfl

/-- An open sink takes the text, and nothing else on the stage changes. -/
theorem emit_of_isOpen {sink : Sink} (h : sink.isOpen = true) (memory : Memory) (text : String) :
    emit text ⟨memory, status, sink⟩ = .ok () ⟨memory, status, sink.append text⟩ := by
  unfold emit
  rw [bind_of_ok (x := get) rfl]
  simp only [Sink.write?_of_isOpen h]
  rfl

/-- A closed sink makes the action crash, and leaves the stage as it was. -/
theorem emit_of_closed {sink : Sink} (h : sink.isOpen = false) (memory : Memory) (text : String) :
    emit text ⟨memory, status, sink⟩ = .error (.crash .sinkClosed) ⟨memory, status, sink⟩ := by
  unfold emit
  rw [bind_of_ok (x := get) rfl]
  simp only [Sink.write?_of_closed h]
  rfl

/-- The loop of `dump` on an open sink. The induction is on the values that are left to be
written; each piece leaves the sink open for the pieces after it. -/
theorem forM_emit_of_isOpen {sink : Sink} (h : sink.isOpen = true) (memory : Memory)
    (values : List Value) :
    (values.forM fun v => emit (v.text ++ "\n")) ⟨memory, status, sink⟩
      = .ok () ⟨memory, status,
          sink.append (String.join (values.map fun v => v.text ++ "\n"))⟩ := by
  induction values generalizing sink with
  | nil =>
    rw [List.map_nil, String.join_nil, Sink.append_empty]
    rfl
  | cons v values ih =>
    rw [List.map_cons, String.join_cons, ← Sink.append_append, ← ih (by simpa using h)]
    exact bind_of_ok (emit_of_isOpen status h memory _)

end Handler

/-! ## Every handler is its transaction -/

namespace Instruction

open Handler

/-- What `dump` raises it raises at its first piece of text, when nothing is written yet. It is
the only handler that writes more than once, and so the only one that could stop half way. -/
theorem handle_dump (stage : Stage) : dump.handle stage = dump.transact stage := by
  obtain ⟨memory, status, sink⟩ := stage
  cases ho : sink.isOpen with
  | true =>
    simp only [transact, execute, Sink.writeAll?_of_isOpen ho]
    exact forM_emit_of_isOpen status ho memory memory.stack
  | false =>
    obtain ⟨stack, registers⟩ := memory
    cases stack with
    | nil => rfl
    | cons v s =>
      -- a closed sink fails at the first line, and none has been written then
      have hw : sink.writeAll? ((v :: s).map fun v => v.text ++ "\n") = none :=
        Sink.writeAll?_of_closed ho (by simp)
      simp only [transact, execute, hw]
      refine (bind_of_ok (x := Handler.stack) (a := v :: s) rfl).trans ?_
      exact bind_of_error (emit_of_closed status ho ⟨v :: s, registers⟩ _)

/-- **Handlers are transactions.** Whatever an instruction raises, it raises before its handler has
changed anything; and if it raises nothing, the handler makes the changes of its effect. -/
theorem handle_eq_transact (i : Instruction) (stage : Stage) : i.handle stage = i.transact stage := by
  obtain ⟨⟨stack, registers⟩, status, sink⟩ := stage
  -- an instruction that needs values is refused by its first action if there are too few of them
  cases i with
  | noop => rfl
  | push v => rfl
  | clear => rfl
  | exit => rfl
  | dump => exact handle_dump _
  | pop =>
    cases stack with
    | nil => rfl
    | cons v s => exact require_bind _ _ _ _ (by simp)
  | dup =>
    cases stack with
    | nil => rfl
    | cons v s => exact require_bind _ _ _ _ (by simp)
  | swap =>
    rcases stack with _ | ⟨v, _ | ⟨w, s⟩⟩
    · rfl
    · rfl
    · -- the two values are read before either of their places is written
      refine (require_bind _ _ _ _ (by simp)).trans ?_
      refine (bind_of_ok (x := peek 1) (a := w) rfl).trans ?_
      refine (bind_of_ok (x := peek 0) (a := v) rfl).trans ?_
      refine (bind_of_ok (poke_of_lt _ registers status sink w (by simp))).trans ?_
      exact poke_of_lt _ registers status sink v (by simp)
  | assert expected =>
    cases stack with
    | nil => rfl
    | cons v s =>
      refine (require_bind _ _ _ _ (by simp)).trans ?_
      refine (bind_of_ok (x := peek 0) (a := v) rfl).trans ?_
      simp only [transact, execute]
      cases v.equals expected with
      | error conditions => rfl
      | ok equal => cases equal <;> rfl
  | arith op =>
    rcases stack with _ | ⟨y, _ | ⟨x, s⟩⟩
    · rfl
    · rfl
    · refine (require_bind _ _ _ _ (by simp)).trans ?_
      refine (bind_of_ok (x := peek 1) (a := x) rfl).trans ?_
      refine (bind_of_ok (x := peek 0) (a := y) rfl).trans ?_
      simp only [transact, execute]
      cases x.apply op y with
      | error e => rfl
      | ok v => rfl
  | load r =>
    refine (bind_of_ok (x := get) (a := ⟨⟨stack, registers⟩, status, sink⟩) rfl).trans ?_
    simp only [transact, execute]
    cases registers.get r with
    | none => rfl
    | some v => rfl
  | store r =>
    cases stack with
    | nil => rfl
    | cons v s => exact require_bind _ _ _ _ (by simp)
  | print =>
    cases stack with
    | nil => rfl
    | cons v s =>
      refine (require_bind _ _ _ _ (by simp)).trans ?_
      refine (bind_of_ok (x := peek 0) (a := v) rfl).trans ?_
      simp only [transact, execute]
      cases v.printable? with
      | none => rfl
      | some c =>
        cases ho : sink.isOpen with
        | true =>
          simp only [Sink.writeAll?_of_isOpen ho, String.join_cons, String.join_nil,
            String.append_empty]
          exact emit_of_isOpen status ho _ _
        | false =>
          simp only [Sink.writeAll?_of_closed ho (List.cons_ne_nil _ _)]
          exact emit_of_closed status ho _ _

end Instruction

end StackMachine
