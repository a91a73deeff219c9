import Mathlib
import StackMachine.Proofs.Lifetime
import StackMachine.Proofs.Termination

/-!
# Processes are isolated

The processes of a machine share its table, its scheduler and often a sink. Whatever is done with the
machine, what a process has become depends on its program and on the calls that it was given, and of
each call only on the budget and on whether the sink was open. This holds as well after a crash
has broken off `runAll`, when some processes have had their turn of the last round and others have not.

* **`Program.alone`**: a process with a sink to itself, after given calls.
* **`Machine.callLog`**: the calls that actions make, each with the id of the process called.
* **`Machine.Isolated`**: every process in the table is what its program alone comes to.
* **`Machine.Isolated.act`**: every action keeps the machine isolated.
* **`Machine.act_of_breaks`**: an error that escapes takes one process out of the table.
* **`Machine.processes_isolated`**: the headline.
-/

namespace StackMachine

/-! ## A process alone -/

/-- A process that has a sink to itself, after the calls. Before each of them the sink may have been
closed or opened. -/
def Program.alone (prog : Program) (calls : List Call) : Process × Sink :=
  calls.foldl
    (fun s c =>
      let r := s.1.run { s.2 with isOpen := c.isOpen } c.budget
      (r.process, r.sink))
    (prog.start, .empty)

/-- A call on any sink does to the process what it would have done alone. What a sink holds plays
no part, and whether it is open is part of the call. -/
theorem Program.alone_concat (prog : Program) (calls : List Call) (out : Sink) (budget : Int) :
    (prog.alone (calls ++ [⟨budget, out.isOpen⟩])).1
      = ((prog.alone calls).1.run out budget).process := by
  rw [alone, List.foldl_append]
  show ((prog.alone calls).1.run { (prog.alone calls).2 with isOpen := out.isOpen } budget).process = _
  apply Process.run_congr
  rfl

/-! ## Calls and whom they are for -/

/-- The call of a turn, with the id of the process. -/
def Turn.called? (t : Turn) : Option (Nat × Call) :=
  t.call.map (t.pid, ·)

/-- The calls of one process among those of all. -/
def callsTo (pid : Nat) (log : List (Nat × Call)) : List Call :=
  log.filterMap fun (id, c) => if id = pid then some c else none

@[simp] theorem callsTo_append (pid : Nat) (log new : List (Nat × Call)) :
    callsTo pid (log ++ new) = callsTo pid log ++ callsTo pid new :=
  List.filterMap_append

/-- Calls of other processes are none of this one. -/
theorem callsTo_eq_nil {pid : Nat} {log : List (Nat × Call)} (h : ∀ c ∈ log, c.1 ≠ pid) :
    callsTo pid log = [] := by
  rw [callsTo, List.filterMap_eq_nil_iff]
  intro c hc
  exact if_neg (h c hc)

theorem callsTo_self (pid : Nat) (c : Call) : callsTo pid [(pid, c)] = [c] := by
  simp [callsTo]

namespace Machine

/-- The turns that an action gives. -/
def turnsOf (m : Machine) : Action → List Turn
  | .run pid => m.runTurns pid
  | .runAll => m.runAllTurns
  | _ => []

/-- The calls that an action makes: those of its turns, or the direct one. -/
def callsOf (m : Machine) : Action → List (Nat × Call)
  | .call pid budget =>
    match m.find? pid with
    | none => []
    | some e => [(e.pid, ⟨budget, (m.sinks.get e.sink).isOpen⟩)]
  | a => (m.turnsOf a).filterMap Turn.called?

/-- The machine after the actions. -/
def after (m : Machine) (actions : List Action) : Machine :=
  actions.foldl act m

/-- All calls that the actions make. -/
def callLog (m : Machine) : List Action → List (Nat × Call)
  | [] => []
  | a :: actions => m.callsOf a ++ (m.act a).callLog actions

namespace Action

/-- The program that the action loads, if it loads one. -/
def programs : Action → List Program
  | .load prog _ => [prog]
  | _ => []

/-- Whether the action is a direct call of a process. -/
def isCall : Action → Bool
  | .call _ _ => true
  | _ => false

/-- Whether the action replaces the configuration. -/
def isSetConfig : Action → Bool
  | .setConfig _ => true
  | _ => false

end Action

/-! ## What an action leaves of the isolation -/

/-- Every process in the table is what its program alone comes to with the calls that were made to it.
The programs are given in the order in which they were loaded. -/
structure Isolated (m : Machine) (progs : List Program) (log : List (Nat × Call)) : Prop where
  lone : ∀ e ∈ m.table, 0 < e.pid
    ∧ ∃ prog, progs[e.pid - 1]? = some prog ∧ e.process = (prog.alone (callsTo e.pid log)).1
  loaded : m.lastPid = progs.length
  called : ∀ c ∈ log, c.1 ≤ m.lastPid

namespace Isolated

variable {m m' : Machine} {progs : List Program} {log : List (Nat × Call)}

/-- **What a call leaves of the isolation.** At most one process has been called. It is as after that
call alone, if it is still there, and to the others the call makes no difference. -/
theorem of_call (h : m.Isolated progs log) {before kept after : List Entry} {e : Entry}
    {new : List (Nat × Call)} (hholds : m.Holds before e after)
    (htable : m'.table = before ++ (kept ++ after)) (hlast : m'.lastPid = m.lastPid)
    (hnew : ∀ c ∈ new, c.1 = e.pid)
    (hkept : ∀ x ∈ kept, x.pid = e.pid ∧ ∃ out budget, new = [(e.pid, ⟨budget, out.isOpen⟩)]
      ∧ x.process = (e.process.run out budget).process) :
    m'.Isolated progs (log ++ new) := by
  obtain ⟨hpos, prog, hprog, halone⟩ := h.lone e hholds.mem_self
  -- for all other processes no call is added to the log
  have hothers : ∀ x ∈ m.table, x.pid ≠ e.pid → 0 < x.pid ∧ ∃ prog,
      progs[x.pid - 1]? = some prog ∧ x.process = (prog.alone (callsTo x.pid (log ++ new))).1 := by
    intro x hx hne
    have hnone : callsTo x.pid new = [] := callsTo_eq_nil fun c hc => hnew c hc ▸ Ne.symm hne
    rw [callsTo_append, hnone, List.append_nil]
    exact h.lone x hx
  refine ⟨?_, hlast.trans h.loaded, ?_⟩
  · intro x hx
    rw [htable, List.mem_append, List.mem_append] at hx
    rcases hx with hx | hx | hx
    · exact hothers x (hholds.mem_iff.mpr (Or.inl hx)) (hholds.before x hx)
    · -- the process itself: one more call, on a sink that was open or closed as it was
      obtain ⟨hpid, out, budget, rfl, hprocess⟩ := hkept x hx
      rw [hpid, callsTo_append, callsTo_self, hprocess, halone, ← Program.alone_concat]
      exact ⟨hpos, prog, hprog, rfl⟩
    · exact hothers x (hholds.mem_iff.mpr (Or.inr (Or.inr hx))) (hholds.after x hx)
  · intro c hc
    rw [hlast]
    rcases List.mem_append.mp hc with hc | hc
    · exact h.called c hc
    · rw [hnew c hc, h.loaded]
      have hlt := (List.getElem?_eq_some_iff.mp hprog).1
      omega

/-- What a turn leaves of the isolation. The call of the turn is logged for its own process; a
refused turn makes no call and changes none. -/
theorem turn (h : m.Isolated progs log) (hm : m.Ascending) {pid : Nat} {t : Turn}
    (ht : m.turn? pid = some (t, m')) : m'.Isolated progs (log ++ t.called?.toList) := by
  obtain ⟨before, e, after, hholds, -, rfl, rfl⟩ := turn?_eq_some hm ht
  refine h.of_call hholds rfl rfl ?_ ?_
  · intro c hc
    obtain ⟨call, -, rfl⟩ := Option.map_eq_some_iff.mp (Option.mem_toList.mp hc)
    exact Entry.pid_turn
  · intro x hx
    obtain ⟨hr, rfl⟩ := Turn.mem_kept.mp hx
    refine ⟨Entry.pid_turn, m.sinks.get e.sink, m.config.stepBudget, ?_, ?_⟩
    · -- a slice that was refused would not have left the process running
      rcases Entry.turn_cases e m.config (m.sinks.get e.sink) with ⟨limit, hlimit⟩ | hcall
      · rw [hlimit] at hr
        cases hr
      · rw [hcall]
        rfl
    · rw [(Entry.turn_of_running hr).2]

/-- What any turns leave of the isolation. Induction on the turns, each of them logging its call
behind the earlier ones. -/
theorem takes {ts : List Turn} (ht : Takes m ts m') (hm : m.Ascending) (h : m.Isolated progs log) :
    m'.Isolated progs (log ++ ts.filterMap Turn.called?) := by
  induction ht generalizing log with
  | nil => simpa using h
  | @cons m m' m'' pid t ts hturn _ ih =>
    have hrest := ih (hm.turn hturn) (h.turn hm hturn)
    rw [List.append_assoc] at hrest
    cases hcalled : t.called? with
    | none => simpa [hcalled] using hrest
    | some c => simpa [hcalled] using hrest

end Isolated

namespace Isolated

variable {m : Machine} {progs : List Program} {log : List (Nat × Call)}

/-- A new process has had no calls: the ids in the log have all been given out before. -/
theorem load (h : m.Isolated progs log) (prog : Program) (name : SinkName) :
    (m.load prog name).Isolated (progs ++ [prog]) log := by
  refine ⟨?_, ?_, ?_⟩
  · intro e he
    rcases List.mem_append.mp he with he | he
    · obtain ⟨hpos, prog', hprog, halone⟩ := h.lone e he
      have hlt := (List.getElem?_eq_some_iff.mp hprog).1
      exact ⟨hpos, prog', by rw [List.getElem?_append_left hlt, hprog], halone⟩
    · -- no call was made under an id that had not been given out
      have hnone : callsTo m.nextPid log = [] := by
        apply callsTo_eq_nil
        intro c hc
        have := h.called c hc
        unfold nextPid
        omega
      rw [List.mem_singleton.mp he]
      refine ⟨Nat.succ_pos _, prog, ?_, ?_⟩
      · show (progs ++ [prog])[m.lastPid + 1 - 1]? = some prog
        simp [h.loaded]
      · show prog.start = (prog.alone (callsTo m.nextPid log)).1
        rw [hnone]
        rfl
  · show m.lastPid + 1 = _
    rw [h.loaded, List.length_append, List.length_singleton]
  · intro c hc
    exact Nat.le_succ_of_le (h.called c hc)

/-- **Every action keeps the machine isolated.** The schedulers are turns, the direct run is a
single call, and loading and configuring call no process. -/
theorem act (h : m.Isolated progs log) (hm : m.Ascending) (a : Action) :
    (m.act a).Isolated (progs ++ a.programs) (log ++ m.callsOf a) := by
  cases a with
  | load prog name =>
    simp only [callsOf, turnsOf, List.filterMap_nil, List.append_nil]
    exact h.load prog name
  | run pid =>
    simp only [Action.programs, List.append_nil]
    exact takes (takes_run hm pid) hm h
  | runAll =>
    simp only [Action.programs, List.append_nil]
    exact takes (runAllTurns_spec hm).2.1 hm h
  | call pid budget =>
    -- a direct call is logged like a turn, but leaves the process in the table in any case
    simp only [Action.programs, List.append_nil]
    show (m.stepProcess pid budget).1.Isolated progs (log ++ m.callsOf (.call pid budget))
    cases hfind : m.find? pid with
    | none =>
      rw [stepProcess_of_not_found hfind, callsOf, hfind, List.append_nil]
      exact h
    | some e =>
      obtain ⟨rfl, before, after, hholds⟩ := hm.holds_of_find? hfind
      rw [hholds.stepProcess, callsOf, hfind]
      refine h.of_call hholds (congrArg (before ++ ·) List.singleton_append.symm) rfl ?_ ?_
      · simp
      · intro x hx
        rw [List.mem_singleton.mp hx]
        exact ⟨rfl, _, budget, rfl, rfl⟩
  | setConfig config =>
    simp only [Action.programs, callsOf, turnsOf, List.filterMap_nil, List.append_nil]
    exact ⟨h.lone, h.loaded, h.called⟩
  | setSink name sink =>
    simp only [Action.programs, callsOf, turnsOf, List.filterMap_nil, List.append_nil]
    exact ⟨h.lone, h.loaded, h.called⟩

/-- All actions together keep it so. Induction over the actions, with the machine, the programs
and the log of those before. -/
theorem after (h : m.Isolated progs log) (hm : m.Reachable) (actions : List Action) :
    (m.after actions).Isolated (progs ++ actions.flatMap Action.programs)
      (log ++ m.callLog actions) := by
  induction actions generalizing m progs log with
  | nil => simpa [Machine.after, callLog] using h
  | cons a actions ih =>
    rw [callLog, List.flatMap_cons, ← List.append_assoc, ← List.append_assoc]
    exact ih (h.act hm.ascending a) (hm.act a)

end Isolated

/-- Actions lead from reachable machines to reachable ones. -/
theorem Reachable.after {m : Machine} (hm : m.Reachable) (actions : List Action) :
    (m.after actions).Reachable := by
  induction actions generalizing m with
  | nil => exact hm
  | cons a actions ih => exact ih (hm.act a)

/-! ## Errors that escape -/

/-- A crash escapes from the action. -/
def Breaks (m : Machine) (c : Crash) : Action → Prop
  | .run pid => (m.run pid).2 = .error (.crashed c)
  | .runAll => m.runAll.2 = .error (.crashed c)
  | _ => False

/-- Turns can be told one after the other: there is a machine in between. Induction on the first
of them. -/
theorem Takes.of_append {m m'' : Machine} {ts us : List Turn} (h : Takes m (ts ++ us) m'') :
    ∃ m', Takes m ts m' ∧ Takes m' us m'' := by
  induction ts generalizing m with
  | nil => exact ⟨m, .nil m, h⟩
  | cons t ts ih =>
    cases h with
    | cons hturn rest =>
      obtain ⟨m', hfirst, hsecond⟩ := ih rest
      exact ⟨m', .cons hturn hfirst, hsecond⟩

/-- The last turn is the one that broke the action off, and no earlier one crashed. Only `run` and
`runAll` give turns; a crash of the direct run takes no process out of the table, and does not
count here. -/
theorem exists_last_of_breaks {m : Machine} (hm : m.Ascending) {c : Crash} {a : Action}
    (h : m.Breaks c a) :
    ∃ front last, m.turnsOf a = front ++ [last] ∧ (∀ t ∈ front, t.crash? = none)
      ∧ last.outcome = .crashed c ∧ Takes m (front ++ [last]) (m.act a) := by
  cases a with
  | run pid =>
    replace h : (m.run pid).2 = .error (.crashed c) := h
    cases hfind : m.find? pid with
    | none =>
      rw [run, hfind] at h
      cases h
    | some e =>
      obtain ⟨-, htakes, front, last, hturns, hfront, -, -, hanswer⟩ := runTurns_spec hm hfind
      rw [hturns] at htakes
      refine ⟨front, last, hturns, ?_, ?_, htakes⟩
      · intro t ht
        rw [Turn.crash?, (hfront t ht).2]
        rfl
      · -- only a crash is answered with an error, and it is the one that escapes
        rw [hanswer, answer] at h
        split at h
        · next hcrash =>
          cases h
          exact Outcome.crash?_eq_some.mp hcrash
        · cases h
  | runAll =>
    rcases hm.runAll_cases with ⟨hok, -⟩ | ⟨c', herror, front, last, hturns, hlast, hfront⟩
    · rw [Breaks, hok] at h
      cases h
    · rw [Breaks, herror] at h
      cases h
      have htakes := (runAllTurns_spec hm).2.1
      rw [hturns] at htakes
      exact ⟨front, last, hturns, hfront, hlast, htakes⟩
  | load prog name => exact h.elim
  | call pid budget => exact h.elim
  | setConfig config => exact h.elim
  | setSink name sink => exact h.elim

/-- **An error that escapes takes one process out of the table**, the one that it came from. The turns
before it have taken out those that ended in them. -/
theorem act_of_breaks {m : Machine} (hm : m.Ascending) {c : Crash} {a : Action}
    (h : m.Breaks c a) :
    ∃ front last m', m.turnsOf a = front ++ [last] ∧ (∀ t ∈ front, t.crash? = none)
      ∧ last.outcome = .crashed c ∧ Takes m front m'
      ∧ m'.pids = m.pids.filter (fun pid => ∀ t ∈ front, t.pid = pid → t.outcome = .running)
      ∧ last.pid ∈ m'.pids ∧ (m.act a).table = m'.table.filter (·.pid ≠ last.pid) := by
  obtain ⟨front, last, hturns, hfront, hlast, htakes⟩ := exists_last_of_breaks hm h
  obtain ⟨m', hbefore, hcrash⟩ := htakes.of_append
  refine ⟨front, last, m', hturns, hfront, hlast, hbefore, hbefore.pids_eq hm, ?_⟩
  have hm' := hbefore.ascending hm
  refine ⟨hcrash.pid_mem hm' last List.mem_cons_self, ?_⟩
  -- the last turn is taken apart: it keeps nothing of its process
  generalize m.act a = m'' at hcrash
  cases hcrash with
  | cons hturn rest =>
    cases rest with
    | nil =>
      obtain ⟨before, e, after, hholds, -, rfl, rfl⟩ := turn?_eq_some hm' hturn
      have hended : (e.turn m'.config (m'.sinks.get e.sink)).outcome ≠ .running := by
        rw [hlast]
        nofun
      rw [Turn.kept_of_ended hended, Entry.pid_turn]
      exact hholds.remove.symm

/-! ## Histories without direct calls -/

/-- An action leaves the configuration as it is or is the one that replaces it. Without such an
action all turns have the same budget. -/
theorem config_act (m : Machine) (a : Action) :
    (m.act a).config = m.config ∨ a = .setConfig (m.act a).config := by
  cases a with
  | load prog name => exact Or.inl rfl
  | run pid =>
    left
    show (m.run pid).1.config = m.config
    unfold run
    split <;> rfl
  | runAll => exact Or.inl rfl
  | call pid budget =>
    left
    show (m.stepProcess pid budget).1.config = m.config
    unfold stepProcess
    split <;> rfl
  | setConfig config => exact Or.inr rfl
  | setSink name sink => exact Or.inl rfl

/-- What holds of fresh entries and is kept by the turns of every configuration that there is on the
way, holds of all entries if no process is called directly. -/
theorem forall_mem_after {P : Entry → Prop} {C : Config → Prop} {m : Machine} (hm : m.Reachable)
    {actions : List Action} (hcalls : ∀ a ∈ actions, a.isCall = false)
    (hconfigs : ∀ config, .setConfig config ∈ actions → C config)
    (hfresh : ∀ (pid : Nat) (prog : Program) (name : SinkName), P ⟨pid, prog.start, 0, name⟩)
    (hturn : ∀ config, C config → ∀ (e : Entry) (out : Sink), P e →
      (e.turn config out).outcome = .running → P (e.turn config out).slice.entry)
    (hC : C m.config) (h₀ : ∀ e ∈ m.table, P e) : ∀ e ∈ (m.after actions).table, P e := by
  induction actions generalizing m with
  | nil => exact h₀
  | cons a actions ih =>
    refine ih (hm.act a) (fun b hb => hcalls b (List.mem_cons_of_mem a hb))
      (fun config hb => hconfigs config (List.mem_cons_of_mem a hb)) ?_ ?_
    · rcases config_act m a with hsame | hset
      · rw [hsame]
        exact hC
      · exact hconfigs _ (hset ▸ List.mem_cons_self)
    · refine forall_mem_act hm.ascending a hfresh (hturn m.config hC) ?_ h₀
      intro pid budget ha
      have hcall := hcalls a List.mem_cons_self
      rw [ha] at hcall
      cases hcall

/-- A turn that leaves its process running is one slice more and a whole budget of steps. It is
the step of the two invariants below. -/
theorem steps_turn {e : Entry} {config : Config} {out : Sink}
    (h : (e.turn config out).outcome = .running) :
    (e.turn config out).slice.entry.process.status = .running
      ∧ (e.turn config out).slice.entry.process.steps = e.process.steps + config.stepBudget
      ∧ (e.turn config out).slice.entry.slices = e.slices + 1 := by
  obtain ⟨hrun, hentry⟩ := Entry.turn_of_running h
  obtain ⟨hstatus, hsteps⟩ := Process.steps_run hrun
  rw [hentry]
  exact ⟨hstatus, hsteps, rfl⟩

/-- Without direct calls, a process in the table is running: a turn that ends it takes it out. -/
theorem running_after {config : Config} {actions : List Action}
    (hcalls : ∀ a ∈ actions, a.isCall = false) :
    ∀ e ∈ ((start config).after actions).table, e.process.status = .running := by
  refine forall_mem_after (C := fun _ => True) (.start config) hcalls (fun _ _ => trivial) ?_ ?_
    trivial nofun
  · exact fun pid prog name => rfl
  · exact fun config _ e out _ hr => (steps_turn hr).1

/-- Under one configuration and without direct calls, the steps of a process in the table are its
slices times the budget. -/
theorem steps_after {config : Config} {actions : List Action}
    (hcalls : ∀ a ∈ actions, a.isCall = false) (hconfigs : ∀ a ∈ actions, a.isSetConfig = false) :
    ∀ e ∈ ((start config).after actions).table, e.process.steps = e.slices * config.stepBudget := by
  refine forall_mem_after (C := (· = config)) (.start config) hcalls ?_ ?_ ?_ rfl nofun
  · intro other hmem
    cases hconfigs _ hmem
  · exact fun pid prog name => (Nat.zero_mul _).symm
  · rintro _ rfl e out hsteps hr
    obtain ⟨-, hturn, hslices⟩ := steps_turn hr
    rw [hturn, hslices, hsteps, Nat.succ_mul]

/-! ## The headline -/

/-- **Processes are isolated, also across crashes.** After any actions on a new machine, every process in
the table is exactly what its program alone comes to with the calls that were made to it, each with the
same budget and the sink open or closed as it was then. A crash that escapes from an action does so in
the last turn and takes out of the table that process only; a direct call takes out none. Without
direct calls every process in the table is running, and if the configuration has not been replaced
either, its steps are those of its slices. -/
theorem processes_isolated (config : Config) (actions : List Action) :
    let m := (start config).after actions
    (∀ e ∈ m.table, 0 < e.pid ∧ ∃ prog, (actions.flatMap Action.programs)[e.pid - 1]? = some prog
        ∧ e.process = (prog.alone (callsTo e.pid ((start config).callLog actions))).1)
      ∧ (∀ c a, m.Breaks c a → ∃ front last m',
          m.turnsOf a = front ++ [last] ∧ (∀ t ∈ front, t.crash? = none)
          ∧ last.outcome = .crashed c ∧ Takes m front m'
          ∧ m'.pids = m.pids.filter (fun pid => ∀ t ∈ front, t.pid = pid → t.outcome = .running)
          ∧ last.pid ∈ m'.pids ∧ (m.act a).table = m'.table.filter (·.pid ≠ last.pid))
      ∧ (∀ pid budget, (m.act (.call pid budget)).pids = m.pids)
      ∧ ((∀ a ∈ actions, a.isCall = false) →
          (∀ e ∈ m.table, e.process.status = .running)
          ∧ ((∀ a ∈ actions, a.isSetConfig = false) →
              ∀ e ∈ m.table, e.process.steps = e.slices * config.stepBudget)) := by
  intro m
  have hstart : (start config).Isolated [] [] := ⟨nofun, rfl, nofun⟩
  have hm : m.Reachable := Reachable.after (.start config) actions
  have hlone := (hstart.after (.start config) actions).lone
  rw [List.nil_append, List.nil_append] at hlone
  refine ⟨hlone, fun c a ha => act_of_breaks hm.ascending ha, ?_, ?_⟩
  · intro pid budget
    exact (stepProcess_table m pid budget).1
  · intro hcalls
    exact ⟨running_after hcalls, steps_after hcalls⟩

/-- The first of three processes has had its turn when the second one writes to the closed sink; the
third has not. Both are as they would be alone, with one call and with none. -/
theorem processes_isolated_across_break :
    let print : Program := [.push (.ofInt .int8 65 (by decide)), .print, .exit]
    let config : Config := .withBudget 2 (by decide)
    let actions : List Action := [.load [.noop, .noop, .noop, .exit] .shared, .load print .shared,
      .load [.noop, .exit] .shared, .setSink .shared Sink.empty.close, .runAll]
    let m := (start config).after actions
    ((start config).after (actions.take 4)).Breaks .sinkClosed .runAll
      ∧ m.pids = [1, 3] ∧ (start config).callLog actions = [(1, ⟨2, false⟩), (2, ⟨2, false⟩)]
      ∧ (∀ e ∈ m.table, e.pid = 1 →
          e.process = (Program.alone [.noop, .noop, .noop, .exit] [⟨2, false⟩]).1
            ∧ e.process.status = .running ∧ e.process.steps = e.slices * 2)
      ∧ ∀ e ∈ m.table, e.pid = 3 → e.process = (Program.alone [.noop, .exit] []).1 := by
  intro print config actions m
  have hbreaks : ((start config).after (actions.take 4)).runAll.2 = .error (.crashed .sinkClosed) := by
    cbv
  have hpids : m.pids = [1, 3] := by cbv
  have hlog : (start config).callLog actions = [(1, ⟨2, false⟩), (2, ⟨2, false⟩)] := by cbv
  obtain ⟨hlone, -, -, hrunning⟩ := processes_isolated config actions
  obtain ⟨hstatus, hsteps⟩ := hrunning (by simp [actions, Action.isCall])
  refine ⟨hbreaks, hpids, hlog, ?_, ?_⟩
  · intro e he hpid
    obtain ⟨-, prog, hprog, halone⟩ := hlone e he
    rw [hpid] at hprog halone
    rw [hlog] at halone
    cases hprog
    exact ⟨halone, hstatus e he, hsteps (by simp [actions, Action.isSetConfig]) e he⟩
  · intro e he hpid
    obtain ⟨-, prog, hprog, halone⟩ := hlone e he
    rw [hpid] at hprog halone
    rw [hlog] at halone
    cases hprog
    exact halone

end Machine

end StackMachine
