import StackMachine.Machine.Basic

/-!
# Machines that operations lead to

The table of a machine is in the order of the ids and holds no id twice, whatever has been done with
the machine. Loading puts the largest id at the end; every other operation keeps the ids that are
there or takes some of them out, also when a crash ends a round early.

* **`Machine.Reachable`**: the machines that operations lead to. Processes may be run directly, the
  configuration may be replaced, and anything may be done to the sinks at any time.
* **`Machine.Reachable.ascending`**: the ids of the table are ascending and have been given out.
-/

namespace StackMachine

/-! ## Ids through slices and rounds -/

/-- A slice of an entry keeps its id, whether the limit refuses it or the process is called.
Everything below about the ids in the table rests on this. -/
theorem Entry.pid_slice (e : Entry) (config : Config) (out : Sink) :
    (e.slice config out).entry.pid = e.pid := by
  unfold slice
  split <;> rfl

/-- A round keeps the ids of the processes that stay, in their order. Induction over the table:
the first process stays in front, leaves, or breaks the round off, and then the others are left as
they are. -/
theorem pids_runRound_sublist (config : Config) (table : List Entry) (sinks : Sinks) :
    ((runRound config table sinks).table.map (·.pid)).Sublist (table.map (·.pid)) := by
  induction table generalizing sinks with
  | nil => exact .refl _
  | cons e es ih =>
    simp only [runRound]
    split
    · rw [Round.keep, List.map_cons, List.map_cons, Entry.pid_slice]
      exact (ih _).cons_cons e.pid
    · -- a crash ends the round: the processes behind the one that crashed stay as they are
      exact List.sublist_cons_self _ _
    · exact (ih _).cons e.pid

/-- The rounds together only take ids out of the table. Induction on the recursion of `runRounds`,
one sublist after the other. -/
theorem pids_runRounds_sublist (config : Config) (table : List Entry) (sinks : Sinks) :
    ((runRounds config table sinks).table.map (·.pid)).Sublist (table.map (·.pid)) := by
  fun_induction runRounds config table sinks with
  | case1 sinks => exact .refl _
  | case2 e es sinks r hclosed => exact pids_runRound_sublist config (e :: es) sinks
  | case3 e es sinks r hopen rest ih => exact ih.trans (pids_runRound_sublist config (e :: es) sinks)

namespace Machine

/-! ## Reachable machines -/

/-- Operations lead from a new machine to this one. -/
inductive Reachable : Machine → Prop where
  | start (config : Config) : Reachable (start config)
  | load {m : Machine} (hm : Reachable m) (prog : Program) (name : SinkName) :
      Reachable (m.load prog name)
  | run {m : Machine} (hm : Reachable m) (pid : Int) : Reachable (m.run pid).1
  | runAll {m : Machine} (hm : Reachable m) : Reachable m.runAll.1
  | stepProcess {m : Machine} (hm : Reachable m) (pid budget : Int) :
      Reachable (m.stepProcess pid budget).1
  | setConfig {m : Machine} (hm : Reachable m) (config : Config) :
      Reachable { m with config := config }
  | setSink {m : Machine} (hm : Reachable m) (name : SinkName) (sink : Sink) :
      Reachable (m.setSink name sink)

/-- The ids in the table are ascending, and all of them have been given out. -/
structure Ascending (m : Machine) : Prop where
  pids : m.pids.Pairwise (· < ·)
  issued : ∀ pid ∈ m.pids, pid ≤ m.lastPid

/-- What keeps the ids that are there, or takes some out, keeps them ascending. This is how all
operations but `load` keep the order. -/
theorem Ascending.of_sublist {m m' : Machine} (h : m.Ascending) (hpids : m'.pids.Sublist m.pids)
    (hlast : m'.lastPid = m.lastPid) : m'.Ascending where
  pids := h.pids.sublist hpids
  issued pid hpid := hlast ▸ h.issued pid (hpids.subset hpid)

/-- Loading appends the next id, and this is the only way for an id to get into the table. -/
theorem pids_load (m : Machine) (prog : Program) (name : SinkName) :
    (m.load prog name).pids = m.pids ++ [m.nextPid] := by
  simp [pids, load]

/-- A new process goes to the end of the table with an id above all that have been given out, so
the order is kept. -/
theorem Ascending.load {m : Machine} (h : m.Ascending) (prog : Program) (name : SinkName) :
    (m.load prog name).Ascending := by
  constructor
  · rw [pids_load, List.pairwise_append]
    refine ⟨h.pids, List.pairwise_singleton _ _, ?_⟩
    -- the new id comes after all that have been given out
    intro pid hpid new hnew
    rw [List.mem_singleton.mp hnew]
    exact Nat.lt_succ_of_le (h.issued pid hpid)
  · intro pid hpid
    rw [pids_load, List.mem_append, List.mem_singleton] at hpid
    rcases hpid with hold | rfl
    · exact Nat.le_succ_of_le (h.issued pid hold)
    · exact Nat.le_refl _

theorem pids_remove_sublist (m : Machine) (pid : Nat) : (m.remove pid).pids.Sublist m.pids :=
  (List.filter_sublist).map _

/-- Replacing an entry does not change which ids are in the table, because it looks for the id of
the entry that it puts in. -/
theorem pids_replace (m : Machine) (e : Entry) : (m.replace e).pids = m.pids := by
  rw [pids, replace, List.map_map]
  apply List.map_congr_left
  intro old _
  by_cases h : old.pid = e.pid
  · simp [h]
  · simp [h]

/-- `run` replaces its process until it takes it out, or is refused and does nothing: the ids it
leaves are a sublist in each case. -/
theorem Ascending.run {m : Machine} (h : m.Ascending) (pid : Int) : (m.run pid).1.Ascending := by
  cases hfind : m.find? pid with
  | none =>
    simp only [Machine.run, hfind]
    exact h
  | some e =>
    simp only [Machine.run, hfind]
    exact h.of_sublist (pids_remove_sublist m e.pid) rfl

/-- The direct run of a process replaces its entry, so the ids stay as they are. -/
theorem Ascending.stepProcess {m : Machine} (h : m.Ascending) (pid budget : Int) :
    (m.stepProcess pid budget).1.Ascending := by
  cases hfind : m.find? pid with
  | none =>
    simp only [Machine.stepProcess, hfind]
    exact h
  | some e =>
    simp only [Machine.stepProcess, hfind]
    exact h.of_sublist (pids_replace m _ ▸ .refl _) rfl

/-- **The table is in the order of the ids**, whatever has been done with the machine. Induction
over the operations; only `load` adds an id, and it is larger than all others. -/
theorem Reachable.ascending {m : Machine} (hm : m.Reachable) : m.Ascending := by
  induction hm with
  | start config => exact ⟨.nil, nofun⟩
  | load _ prog name ih => exact ih.load prog name
  | run _ pid ih => exact ih.run pid
  | @runAll m _ ih => exact ih.of_sublist (pids_runRounds_sublist m.config m.table m.sinks) rfl
  | stepProcess _ pid budget ih => exact ih.stepProcess pid budget
  | setConfig _ config ih => exact ⟨ih.pids, ih.issued⟩
  | setSink _ name sink ih => exact ⟨ih.pids, ih.issued⟩

end Machine

end StackMachine
