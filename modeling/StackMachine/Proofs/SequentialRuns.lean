import Mathlib
import StackMachine.Command.Execution
import StackMachine.Proofs.Literals
import StackMachine.Proofs.RoundRobin

/-!
# Programs run one by one and in turns

The command that runs files loads all of them into one machine. It then runs them one after the other
and stops after the first that fails, or runs all of them in turns. Either way a program has the
result and the text that it has alone, so the two ways differ only in how far they get. Nothing in an
assembled program signals, so no program breaks off the turns of the others.

* **`throughFirst`**, **`Command.loneReports`**: the two sides of the comparison.
* **`Command.loadAll_eq`**: the table that the programs are loaded into.
* **`Command.runInOrder_eq`**, **`Command.runInTurns_eq`**: the results of the two ways, and the
  texts of the sinks.
* **`Command.sequential_run_agrees`**: the headline.
-/

namespace StackMachine

/-! ## The start of a list -/

section ThroughFirst

variable {α β : Type}

/-- The elements up to the first with the property, that one included; all of them if there is
none. -/
def throughFirst (p : α → Bool) (l : List α) : List α :=
  l.take (l.findIdx p + 1)

theorem throughFirst_cons (p : α → Bool) (a : α) (l : List α) :
    throughFirst p (a :: l) = a :: if p a then [] else throughFirst p l := by
  cases h : p a with
  | true => simp [throughFirst, List.findIdx_cons, h]
  | false => simp [throughFirst, List.findIdx_cons, h]

theorem map_throughFirst (p : β → Bool) (f : α → β) (l : List α) :
    (throughFirst (fun a => p (f a)) l).map f = throughFirst p (l.map f) := by
  rw [throughFirst, throughFirst, List.findIdx_map, List.map_take]
  rfl

theorem throughFirst_sublist (p : α → Bool) (l : List α) : (throughFirst p l).Sublist l :=
  List.take_sublist _ l

/-- If any element has the property, one up to the first of them has. So the exit code does not
depend on what was left out. Induction over the list. -/
theorem all_throughFirst (p : α → Bool) (l : List α) :
    (throughFirst p l).all (!p ·) = l.all (!p ·) := by
  induction l with
  | nil => rfl
  | cons a l ih =>
    rw [throughFirst_cons, List.all_cons, List.all_cons]
    cases h : p a with
    | true => rfl
    | false => simpa using ih

end ThroughFirst

/-! ## Processes with a sink of their own -/

namespace Entry

/-- What the process writes when it is run alone. -/
def loneText (config : Config) (e : Entry) : String :=
  (e.runToEnd config .empty).sink.text

/-- If every process of a table writes to a sink of its own, just one writes to a given one.
Induction over the table; the ids are different, and so are the sinks. -/
theorem filter_own {table : List Entry} (hasc : (table.map (·.pid)).Pairwise (· < ·))
    (hown : ∀ e ∈ table, e.sink = .own e.pid) {e : Entry} (he : e ∈ table) :
    table.filter (·.sink = e.sink) = [e] := by
  induction table with
  | nil => cases he
  | cons x xs ih =>
    obtain ⟨hlt, hasc⟩ := List.pairwise_cons.mp hasc
    have hne : ∀ y ∈ xs, y.sink ≠ x.sink := by
      intro y hy hsink
      rw [hown y (List.mem_cons_of_mem x hy), hown x List.mem_cons_self] at hsink
      exact Nat.ne_of_gt (hlt y.pid (List.mem_map_of_mem hy)) (SinkName.own.inj hsink)
    rcases List.mem_cons.mp he with rfl | hmem
    · rw [List.filter_cons_of_pos (by simp), List.filter_eq_nil_iff.mpr (by simpa using hne)]
    · rw [List.filter_cons_of_neg (by simpa using Ne.symm (hne e hmem)),
        ih hasc (fun y hy => hown y (List.mem_cons_of_mem x hy)) hmem]

end Entry

/-- What a sink is given in the rounds is given by the processes that write to it. If there is
just one, the others could as well not be there. -/
theorem roundsText_of_filter {config : Config} {name : SinkName} {table : List Entry} {e : Entry}
    (h : table.filter (·.sink = name) = [e]) (he : e.sink = name) (rounds : Nat) :
    roundsText config name rounds table = roundsText config name rounds [e] := by
  have hround : ∀ n, roundText config name n table = roundText config name n [e] := by
    intro n
    rw [roundText_singleton, if_pos he, roundText, h, List.map_singleton, String.join_cons]
    exact String.append_empty
  simp only [roundsText, hround]

/-- Results with ascending ids are what any order of them is sorted into. Runs in turns report in
the order in which the processes end. -/
theorem Result.mergeSort_of_perm {rs sorted : List Result} (hperm : rs.Perm sorted)
    (hasc : (sorted.map (·.pid)).Pairwise (· < ·)) :
    rs.mergeSort (·.pid ≤ ·.pid) = sorted := by
  have hnodup : (sorted.map (·.pid)).Nodup := hasc.imp Nat.ne_of_lt
  have hsorted : (rs.mergeSort (·.pid ≤ ·.pid)).Pairwise fun a b => decide (a.pid ≤ b.pid) = true :=
    List.pairwise_mergeSort (by intro a b c; simp; omega) (by intro a b; simp; omega) rs
  have hall := (List.mergeSort_perm rs (·.pid ≤ ·.pid)).trans hperm
  refine hall.eq_of_pairwise ?_ hsorted ((List.pairwise_map.mp hasc).imp fun h => ?_)
  · -- results of the sorted list with the same id are the same
    intro a b ha hb hab hba
    exact List.inj_on_of_nodup_map hnodup (hall.mem_iff.mp ha) hb
      (Nat.le_antisymm (by simpa using hab) (by simpa using hba))
  · simpa using Nat.le_of_lt h

namespace Machine

/-! ## One after the other -/

/-- What the processes that write to the sink `name` write, one after the other. -/
def textTo (config : Config) (name : SinkName) (table : List Entry) : String :=
  String.join ((table.filter (·.sink = name)).map (Entry.loneText config))

theorem textTo_cons (config : Config) (name : SinkName) (e : Entry) (es : List Entry) :
    textTo config name (e :: es)
      = (if e.sink = name then e.loneText config else "") ++ textTo config name es := by
  by_cases h : e.sink = name
  · simp [textTo, h]
  · simp [textTo, h]

/-- The machine after `e`, the first process of its table, has run to its end. -/
def afterHead (m : Machine) (e : Entry) (es : List Entry) : Machine :=
  { m with
    table := es
    sinks := m.sinks.set e.sink ((m.sinks.get e.sink).append (e.loneText m.config)) }

/-- The first process writes its text to its sink and leaves all other sinks alone. -/
theorem get_afterHead (m : Machine) (e : Entry) (es : List Entry) (name : SinkName) :
    (m.afterHead e es).sinks.get name
      = (m.sinks.get name).append (if e.sink = name then e.loneText m.config else "") := by
  show (m.sinks.set e.sink _).get name = _
  by_cases h : e.sink = name
  · rw [← h, Sinks.get_set_self, if_pos rfl]
  · rw [Sinks.get_set_of_ne _ (Ne.symm h), if_neg h, Sink.append_empty]

/-- The first process of the table runs to its end and leaves the table. It is quiet and its sink
is open, so it does not crash, and the result is that of a run alone. -/
theorem run_head {m : Machine} {e : Entry} {es : List Entry} (htable : m.table = e :: es)
    (hasc : m.pids.Pairwise (· < ·)) (ho : (m.sinks.get e.sink).isOpen = true)
    (hq : e.process.Quiet) : m.run e.pid = (m.afterHead e es, .ok (e.loneResult m.config)) := by
  have hfind : m.find? e.pid = some e := by simp [find?, htable]
  have hrest : es.filter (·.pid ≠ e.pid) = es := by
    rw [pids, htable, List.map_cons, List.pairwise_cons] at hasc
    refine List.filter_eq_self.mpr fun y hy => ?_
    simpa using Nat.ne_of_gt (hasc.1 y.pid (List.mem_map_of_mem hy))
  have hcalm := Entry.crash?_runToEnd hq m.config ho
  have honto := e.runToEnd_onto m.config ho
  simp only [run, hfind, hcalm, remove, setSink, htable]
  rw [List.filter_cons_of_neg (by simp), hrest, honto]
  rfl

end Machine

namespace Command

open Machine

/-- **One after the other.** The processes up to the first that fails have their lone results, and
each sink has the texts of those among them that write to it. -/
theorem runInOrder_eq {m : Machine} (hasc : m.pids.Pairwise (· < ·))
    (ho : ∀ e ∈ m.table, (m.sinks.get e.sink).isOpen = true) (hq : ∀ e ∈ m.table, e.process.Quiet) :
    let ran := throughFirst (fun e => !(e.loneResult m.config).success) m.table
    (runInOrder m m.pids).2 = ran.map (Entry.loneResult m.config)
      ∧ ∀ name, (runInOrder m m.pids).1.sinks.get name
          = (m.sinks.get name).append (textTo m.config name ran) := by
  induction htable : m.table generalizing m with
  | nil =>
    simp [pids, htable, runInOrder, throughFirst, textTo]
  | cons e es ih =>
    have hrun := run_head htable hasc (ho e (htable ▸ List.mem_cons_self))
      (hq e (htable ▸ List.mem_cons_self))
    have hpids : m.pids = e.pid :: es.map (·.pid) := by rw [pids, htable, List.map_cons]
    rw [throughFirst_cons]
    cases hs : (e.loneResult m.config).success with
    | false =>
      -- the run stops here
      simp only [hpids, runInOrder, hrun, hs]
      refine ⟨rfl, fun name => ?_⟩
      rw [textTo_cons]
      exact (get_afterHead m e es name).trans (by simp [textTo])
    | true =>
      -- the others are run in the machine that is left, in which their sinks are open still
      have hasc' : (m.afterHead e es).pids.Pairwise (· < ·) := by
        rw [hpids] at hasc
        exact (List.pairwise_cons.mp hasc).2
      have ho' : ∀ y ∈ es, ((m.afterHead e es).sinks.get y.sink).isOpen = true := by
        intro y hy
        rw [get_afterHead]
        exact ho y (htable ▸ List.mem_cons_of_mem e hy)
      have hq' : ∀ y ∈ es, y.process.Quiet := fun y hy => hq y (htable ▸ List.mem_cons_of_mem e hy)
      obtain ⟨hresults, htext⟩ := ih hasc' ho' hq' rfl
      simp only [hpids, runInOrder, hrun, hs]
      refine ⟨congrArg (e.loneResult m.config :: ·) hresults, fun name => ?_⟩
      rw [textTo_cons, ← Sink.append_append, ← get_afterHead m e es]
      exact htext name

/-! ## In turns -/

/-- **In turns.** All processes have their lone results, and a sink that just one of them writes to
has its lone text. -/
theorem runInTurns_eq {m : Machine} (hslices : ∀ e ∈ m.table, e.slices = 0)
    (hasc : m.pids.Pairwise (· < ·)) (ho : ∀ e ∈ m.table, (m.sinks.get e.sink).isOpen = true)
    (hq : ∀ e ∈ m.table, e.process.Quiet) :
    (runInTurns m).2.Perm (m.table.map (Entry.loneResult m.config))
      ∧ ∀ e ∈ m.table, m.table.filter (·.sink = e.sink) = [e] →
          (runInTurns m).1.sinks.get e.sink
            = (m.sinks.get e.sink).append (e.loneText m.config) := by
  have hallowed : ∀ e ∈ m.table, ∀ limit ∈ m.config.maxSlices, e.slices ≤ limit := by
    intro e he limit _
    rw [hslices e he]
    exact Nat.zero_le limit
  have hcalm : ∀ e ∈ m.table, e.Calm m.config := fun e he => Entry.calm_of_quiet m.config (hq e he)
  have hdone := runRounds_completed m.config m.table m.sinks 0 ⟨hslices, hallowed, hasc, ho, hcalm⟩
  have hturns : runInTurns m = (m.runAll.1, (runRounds m.config m.table m.sinks).finished) := by
    simp only [runInTurns, runAll, hdone.unbroken]
  rw [hturns]
  refine ⟨hdone.perm, fun e he hfilter => ?_⟩
  -- enough rounds for all processes to end
  obtain ⟨rounds, hrounds⟩ := Finset.exists_le
    ((runRounds m.config m.table m.sinks).finished.map Result.round).toFinset
  have hbound : ∀ x ∈ (runRounds m.config m.table m.sinks).finished, x.round ≤ 0 + rounds := by
    intro x hx
    rw [Nat.zero_add]
    exact hrounds _ (List.mem_toFinset.mpr (List.mem_map_of_mem hx))
  have hround := hbound _ (hdone.perm.mem_iff.mpr (List.mem_map_of_mem he))
  rw [← hslices e he] at hround
  rw [Entry.loneText, Entry.text_runToEnd (hcalm e he) (hallowed e he) hround,
    ← roundsText_of_filter hfilter rfl]
  exact hdone.text e.sink rounds hbound

/-! ## Loaded programs -/

/-- The process of a program in the table; the program with the index `n` has the id `n + 1`. -/
def entry (separate : Bool) (x : (String × Program) × Nat) : Entry :=
  ⟨x.2 + 1, x.1.2.start, 0, if separate then .own (x.2 + 1) else .shared⟩

theorem isFresh_entry (separate : Bool) (x : (String × Program) × Nat) :
    (entry separate x).IsFresh x.1.2 :=
  ⟨rfl, rfl⟩

/-- The processes of programs in a table, the ids ascending from the one after `last`. -/
def entries (separate : Bool) (last : Nat) (programs : List (String × Program)) : List Entry :=
  (programs.zipIdx last).map (entry separate)

/-- Programs that are loaded stand behind those that were there, with the next ids. Induction over
the programs. -/
theorem loadAll_eq (separate : Bool) (m : Machine) (programs : List (String × Program)) :
    loadAll separate m programs =
      { m with
        lastPid := m.lastPid + programs.length
        table := m.table ++ entries separate m.lastPid programs } := by
  induction programs generalizing m with
  | nil => simp [loadAll, entries]
  | cons x programs ih =>
    rw [loadAll, ih]
    simp [load, nextPid, entries, entry, List.zipIdx_cons, Nat.add_assoc, Nat.add_comm 1]

theorem loadAll_reachable (separate : Bool) {m : Machine} (hm : m.Reachable)
    (programs : List (String × Program)) : (loadAll separate m programs).Reachable := by
  induction programs generalizing m with
  | nil => exact hm
  | cons x programs ih => exact ih (.load hm _ _)

/-- A machine into which programs have been loaded and nothing else was done. -/
structure Loaded (separate : Bool) (config : Config) (programs : List (String × Program))
    (m : Machine) : Prop where
  config_eq : m.config = config
  table_eq : m.table = entries separate 0 programs
  pids_ascending : m.pids.Pairwise (· < ·)
  slices_eq : ∀ e ∈ m.table, e.slices = 0
  sinks_eq : ∀ name, m.sinks.get name = .empty
  quiet : ∀ e ∈ m.table, e.process.Quiet

/-- Loading into a new machine gives a machine in which nothing else was done. Quiet programs give
quiet processes. -/
theorem loaded_loadAll (separate : Bool) (config : Config) {programs : List (String × Program)}
    (hq : ∀ x ∈ programs, x.2.Quiet) :
    Loaded separate config programs (loadAll separate (.start config) programs) := by
  have hpids := (loadAll_reachable separate (.start config) programs).ascending.pids
  rw [loadAll_eq] at hpids ⊢
  refine ⟨rfl, List.nil_append _, hpids, ?_, fun name => rfl, ?_⟩
  · intro e he
    obtain ⟨x, -, rfl⟩ := List.mem_map.mp (show e ∈ entries separate 0 programs from he)
    rfl
  · intro e he
    obtain ⟨x, hx, rfl⟩ := List.mem_map.mp (show e ∈ entries separate 0 programs from he)
    exact Process.quiet_start (hq x.1 (List.fst_mem_of_mem_zipIdx hx))

/-! ## Reports -/

/-- The report on a program that runs as the only process of a machine, with the id `pid` put in. -/
def loneReport (config : Config) (pid : Nat) (file : String) (p : Program) : RunReport :=
  ⟨{ (p.runAlone config).1 with pid }, file, (p.runAlone config).2⟩

/-- The reports on programs that run alone, numbered from one. -/
def loneReports (config : Config) (programs : List (String × Program)) : List RunReport :=
  programs.zipIdx.map fun x => loneReport config (x.2 + 1) x.1.1 x.1.2

/-- The report on a process of a table, run alone. -/
def entryReport (config : Config) (files : List String) (e : Entry) : RunReport :=
  ⟨e.loneResult config, files.getD (e.pid - 1) "", e.loneText config⟩

/-- The reports on the loaded processes, each run alone, are the reports on the programs. -/
theorem map_entryReport (separate : Bool) (config : Config) (programs : List (String × Program)) :
    (entries separate 0 programs).map (entryReport config (programs.map (·.1)))
      = loneReports config programs := by
  rw [entries, List.map_map, loneReports]
  refine List.map_congr_left fun x hx => ?_
  -- the process has the program and the number of its file
  have hget : programs[x.2]? = some x.1 := List.mem_zipIdx_iff_getElem?.mp hx
  have hfresh : (Entry.mk 1 x.1.2.start 0 .shared).IsFresh x.1.2 := ⟨rfl, rfl⟩
  have hrun := hfresh.runToEnd_eq (isFresh_entry separate x) config .empty
  simp only [Function.comp, entryReport, Entry.loneResult, Entry.loneText, hrun, loneReport,
    Program.runAlone]
  simp [entry, hget, Slice.result]

/-- The results in a list of reports, which the exit code is computed from. -/
theorem map_loneResult (separate : Bool) (config : Config) (programs : List (String × Program)) :
    (entries separate 0 programs).map (Entry.loneResult config)
      = (loneReports config programs).map (·.result) := by
  rw [← map_entryReport separate, List.map_map]
  rfl

/-- The same up to the first failure, which is the same place in both lists. -/
theorem map_entryReport_throughFirst (separate : Bool) (config : Config)
    (programs : List (String × Program)) :
    (throughFirst (fun e => !(e.loneResult config).success) (entries separate 0 programs)).map
        (entryReport config (programs.map (·.1)))
      = throughFirst (fun r => !r.result.success) (loneReports config programs) := by
  rw [← map_entryReport separate]
  exact map_throughFirst (fun r : RunReport => !r.result.success) _ _

namespace Loaded

variable {separate : Bool} {config : Config} {programs : List (String × Program)} {m : Machine}

theorem isOpen (h : Loaded separate config programs m) :
    ∀ e ∈ m.table, (m.sinks.get e.sink).isOpen = true := by
  intro e _
  rw [h.sinks_eq]
  rfl

/-- A run in order of loaded programs: those up to the first failure are run, one after the other.
-/
theorem runInOrder_eq (h : Loaded separate config programs m) :
    let ran := throughFirst (fun e => !(e.loneResult config).success) m.table
    (runInOrder m m.pids).2 = ran.map (Entry.loneResult config)
      ∧ ∀ name, ((runInOrder m m.pids).1.sinks.get name).text = textTo config name ran := by
  obtain ⟨hresults, htext⟩ := Command.runInOrder_eq h.pids_ascending h.isOpen h.quiet
  rw [h.config_eq] at hresults htext
  refine ⟨hresults, fun name => ?_⟩
  rw [htext, h.sinks_eq]
  exact String.empty_append

/-- What is reported in the end of processes that have run, if each has written to a sink of its
own. -/
theorem map_report (h : Loaded separate config programs m) {ran : List Entry}
    (hran : ran.Sublist m.table) {final : Machine} {results : List Result}
    (hresults : results.Perm (ran.map (Entry.loneResult config)))
    (htext : ∀ e ∈ ran, (final.sinks.get (.own e.pid)).text = e.loneText config)
    (files : List String) :
    (results.mergeSort (·.pid ≤ ·.pid)).map (report files final)
      = ran.map (entryReport config files) := by
  have hpid : ∀ e ∈ m.table, (e.loneResult config).pid = e.pid := by
    intro e he
    obtain ⟨x, -, rfl⟩ := List.mem_map.mp (h.table_eq ▸ he)
    exact (isFresh_entry separate x).pid_loneResult config
  have hpids : (ran.map (Entry.loneResult config)).map (·.pid) = ran.map (·.pid) := by
    rw [List.map_map]
    exact List.map_congr_left fun e he => hpid e (hran.subset he)
  rw [Result.mergeSort_of_perm hresults (hpids ▸ h.pids_ascending.sublist (hran.map _)), List.map_map]
  refine List.map_congr_left fun e he => ?_
  simp only [Function.comp, report, entryReport, hpid e (hran.subset he), htext e he]

theorem sink_eq (h : Loaded true config programs m) : ∀ e ∈ m.table, e.sink = .own e.pid := by
  intro e he
  obtain ⟨x, -, rfl⟩ := List.mem_map.mp (h.table_eq ▸ he)
  rfl

/-- The reports after a run in order are those up to the first failure. Each process has a sink of
its own, so the text of a report is what it wrote. -/
theorem reports_in_order (h : Loaded true config programs m) :
    ((runInOrder m m.pids).2.mergeSort (·.pid ≤ ·.pid)).map
        (report (programs.map (·.1)) (runInOrder m m.pids).1)
      = throughFirst (fun r => !r.result.success) (loneReports config programs) := by
  obtain ⟨hresults, htext⟩ := h.runInOrder_eq
  have hran := throughFirst_sublist (fun e => !(e.loneResult config).success) m.table
  rw [← map_entryReport_throughFirst true, ← h.table_eq]
  refine h.map_report hran (.of_eq hresults) (fun e he => ?_) _
  have hsink := h.sink_eq e (hran.subset he)
  have hfilter := Entry.filter_own (h.pids_ascending.sublist (hran.map _))
    (fun y hy => h.sink_eq y (hran.subset hy)) he
  rw [← hsink, htext, textTo, hfilter, List.map_singleton, String.join_cons]
  exact String.append_empty

/-- The reports after a run in turns are those on all programs. A failure does not keep the others
from their turns. -/
theorem reports_in_turns (h : Loaded true config programs m) :
    ((runInTurns m).2.mergeSort (·.pid ≤ ·.pid)).map
        (report (programs.map (·.1)) (runInTurns m).1)
      = loneReports config programs := by
  obtain ⟨hresults, htext⟩ := runInTurns_eq h.slices_eq h.pids_ascending h.isOpen h.quiet
  rw [h.config_eq] at hresults htext
  rw [← map_entryReport true, ← h.table_eq]
  refine h.map_report (.refl _) hresults (fun e he => ?_) _
  rw [← h.sink_eq e he, htext e he (Entry.filter_own h.pids_ascending h.sink_eq he), h.sinks_eq]
  exact String.empty_append

/-- Without sinks of their own the processes leave one text, the texts of their reports one after
the other. -/
theorem text_in_order (h : Loaded false config programs m) :
    ((runInOrder m m.pids).1.sinks.get .shared).text
      = String.join ((throughFirst (fun r => !r.result.success)
          (loneReports config programs)).map (·.output)) := by
  have hran := throughFirst_sublist (fun e => !(e.loneResult config).success) m.table
  have hshared : ∀ e ∈ m.table, e.sink = .shared := by
    intro e he
    obtain ⟨x, -, rfl⟩ := List.mem_map.mp (h.table_eq ▸ he)
    rfl
  rw [h.runInOrder_eq.2, textTo,
    List.filter_eq_self.mpr fun e he => decide_eq_true (hshared e (hran.subset he)),
    ← map_entryReport_throughFirst false, ← h.table_eq, List.map_map]
  rfl

end Loaded

/-! ## What the command writes -/

section RunPrograms

variable (screen : Text.Screen) (verbose : Bool) {programs : List (String × Program)}
  (hq : ∀ x ∈ programs, x.2.Quiet) (config : Config)
include hq

/-- The exit code tells whether all programs succeed when they run alone, in order or in turns and
with or without a report. -/
theorem exit_runPrograms (interleave json : Bool) :
    (runPrograms screen verbose programs config interleave json).exit
      = if (loneReports config programs).all (·.result.success) then 0 else 1 := by
  have h := loaded_loadAll json config hq
  have hall : ((entries json 0 programs).map (Entry.loneResult config)).all (·.success)
      = (loneReports config programs).all (·.result.success) := by
    rw [map_loneResult, List.all_map]
    rfl
  rw [← hall]
  cases interleave with
  | true =>
    -- in turns all results are there, in another order
    have hturns := (runInTurns_eq h.slices_eq h.pids_ascending h.isOpen h.quiet).1
    rw [h.config_eq, h.table_eq] at hturns
    rw [← hturns.all_eq]
    rfl
  | false =>
    -- in order those after the first failure are missing, but the failure itself is there
    have hresults := h.runInOrder_eq.1
    rw [h.table_eq] at hresults
    show (if (runInOrder _ _).2.all _ then 0 else 1) = _
    rw [hresults, map_throughFirst (fun r : Result => !r.success)]
    have := all_throughFirst (fun r : Result => !r.success)
      ((entries json 0 programs).map (Entry.loneResult config))
    simp only [Bool.not_not] at this
    rw [this]

/-- The report of a run in order. -/
theorem stdout_in_order_json :
    (runPrograms screen verbose programs config false true).stdout
      = lines [(Json.array ((throughFirst (fun r => !r.result.success)
          (loneReports config programs)).map (·.json))).text] := by
  rw [← (loaded_loadAll true config hq).reports_in_order]
  rfl

/-- The report of a run in turns. -/
theorem stdout_in_turns_json :
    (runPrograms screen verbose programs config true true).stdout
      = lines [(Json.array ((loneReports config programs).map (·.json))).text] := by
  rw [← (loaded_loadAll true config hq).reports_in_turns]
  rfl

theorem stdout_in_order :
    (runPrograms screen verbose programs config false false).stdout
      = String.join ((throughFirst (fun r => !r.result.success)
          (loneReports config programs)).map (·.output)) :=
  (loaded_loadAll false config hq).text_in_order

end RunPrograms

/-! ## The command line -/

/-- Files that can be read and assembled one by one can be so together. Induction over the files.
-/
theorem exists_files {read : String → Option (List UInt8)} {programs : List (String × Program)}
    (h : ∀ x ∈ programs, ∃ bytes, read x.1 = some bytes ∧ assembleBytes bytes = .ok x.2) :
    ∃ files, (programs.map (·.1)).mapM (fun name => (read name).map (SourceFile.mk name)) = some files
      ∧ assembleFiles files = ⟨programs, none⟩ := by
  induction programs with
  | nil => exact ⟨[], rfl, rfl⟩
  | cons x programs ih =>
    obtain ⟨bytes, hread, hbytes⟩ := h x List.mem_cons_self
    obtain ⟨files, hfiles, hassembled⟩ := ih fun y hy => h y (List.mem_cons_of_mem x hy)
    refine ⟨⟨x.1, bytes⟩ :: files, ?_, ?_⟩
    · simp [hread, hfiles]
    · simp [assembleFiles, hbytes, hassembled]

/-- A command line that is to run such files runs their programs. -/
theorem commandLine_run (screen : Text.Screen) {read : String → Option (List UInt8)}
    {programs : List (String × Program)} {args : List String} {verbose interleave json : Bool}
    {config : Config}
    (h : ∀ x ∈ programs, ∃ bytes, read x.1 = some bytes ∧ assembleBytes bytes = .ok x.2)
    (hargs : Invocation.read? args
      = some ⟨verbose, .run (programs.map (·.1)) config interleave json⟩) :
    commandLine screen read args
      = .output (runPrograms screen verbose programs config interleave json) := by
  obtain ⟨files, hfiles, hassembled⟩ := exists_files h
  simp only [commandLine, hargs, Command.files, hfiles, execute, executeRun, hassembled]

/-- **Running in order is running in turns, up to the first failure.** Let all files be found and
assembled, and let three command lines say to run them with the same budget: in order, in order with
reports, and in turns with reports. In turns there is a report on each program, the one it has alone;
in order there are the same reports up to the first failure. All three end with the same exit code,
and without reports the text is that of the reports in order. -/
theorem sequential_run_agrees (screen : Text.Screen) {read : String → Option (List UInt8)}
    {programs : List (String × Program)} {config : Config} {plain inOrder inTurns : List String}
    {v₁ v₂ v₃ : Bool}
    (hfiles : ∀ x ∈ programs, ∃ bytes, read x.1 = some bytes ∧ assembleBytes bytes = .ok x.2)
    (hplain : Invocation.read? plain = some ⟨v₁, .run (programs.map (·.1)) config false false⟩)
    (hinOrder : Invocation.read? inOrder = some ⟨v₂, .run (programs.map (·.1)) config false true⟩)
    (hinTurns : Invocation.read? inTurns = some ⟨v₃, .run (programs.map (·.1)) config true true⟩) :
    let all := loneReports config programs
    let started := throughFirst (fun r => !r.result.success) all
    ∃ o₁ o₂ o₃ : Output, commandLine screen read plain = .output o₁
      ∧ commandLine screen read inOrder = .output o₂ ∧ commandLine screen read inTurns = .output o₃
      ∧ o₃.stdout = lines [(Json.array (all.map (·.json))).text]
      ∧ o₂.stdout = lines [(Json.array (started.map (·.json))).text]
      ∧ o₁.stdout = String.join (started.map (·.output))
      ∧ o₂.exit = o₃.exit ∧ o₁.exit = o₃.exit
      ∧ (o₃.exit = 0 ↔ ∀ r ∈ all, r.result.success = true) := by
  intro all started
  -- assembled programs do not crash, so every command line ends with an output
  have hq : ∀ x ∈ programs, x.2.Quiet := by
    intro x hx
    obtain ⟨bytes, -, hbytes⟩ := hfiles x hx
    exact Assembly.quiet_of_assembleBytes hbytes
  refine ⟨_, _, _, commandLine_run screen hfiles hplain, commandLine_run screen hfiles hinOrder,
    commandLine_run screen hfiles hinTurns, stdout_in_turns_json screen v₃ hq config,
    stdout_in_order_json screen v₂ hq config, stdout_in_order screen v₁ hq config, ?_, ?_, ?_⟩
  · rw [exit_runPrograms _ _ hq, exit_runPrograms _ _ hq]
  · rw [exit_runPrograms _ _ hq, exit_runPrograms _ _ hq]
  · rw [exit_runPrograms _ _ hq]
    simp [all]

/-- Of three programs the second runs off its end: in order, the third is not run. In turns it is,
and the exit code is the same. -/
theorem sequential_run_agrees_second_fails :
    let a : Program := [.push (.ofInt .int8 65 (by decide)), .print, .exit]
    let b : Program := [.push (.ofInt .int8 66 (by decide)), .print]
    let read (name : String) : Option (List UInt8) :=
      if name = "b" then some "push int8(66)\nprint".toUTF8.toList
      else some "push int8(65)\nprint\nexit".toUTF8.toList
    let first : RunReport := ⟨⟨1, 3, 2, none⟩, "a", "A"⟩
    let second : RunReport := ⟨⟨2, 2, 2, some (.endOfProgram 2)⟩, "b", "B"⟩
    let third : RunReport := ⟨⟨3, 3, 2, none⟩, "c", "A"⟩
    (∀ x ∈ [("a", a), ("b", b), ("c", a)],
        ∃ bytes, read x.1 = some bytes ∧ assembleBytes bytes = .ok x.2)
      ∧ ∃ o₁ o₂ o₃ : Output,
        commandLine .plain read ["run", "a", "b", "c", "-b", "2"] = .output o₁
        ∧ commandLine .plain read ["run", "-jb2", "a", "b", "c"] = .output o₂
        ∧ commandLine .plain read ["run", "--interleave", "-j", "a", "b", "c", "--budget=2"]
          = .output o₃
        ∧ o₃.stdout = lines [(Json.array [first.json, second.json, third.json]).text]
        ∧ o₂.stdout = lines [(Json.array [first.json, second.json]).text]
        ∧ o₁.stdout = "AB" ∧ o₂.exit = o₃.exit ∧ o₁.exit = o₃.exit ∧ o₃.exit ≠ 0 := by
  intro a b read first second third
  have hfiles : ∀ x ∈ [("a", a), ("b", b), ("c", a)],
      ∃ bytes, read x.1 = some bytes ∧ assembleBytes bytes = .ok x.2 := by
    have ha : assembleBytes "push int8(65)\nprint\nexit".toUTF8.toList = .ok a := by cbv
    have hb : assembleBytes "push int8(66)\nprint".toUTF8.toList = .ok b := by cbv
    simpa [read] using And.intro ha (And.intro hb ha)
  let config : Config := .withBudget 2 (by decide)
  have hall : loneReports config [("a", a), ("b", b), ("c", a)] = [first, second, third] := by cbv
  have hplain : Invocation.read? ["run", "a", "b", "c", "-b", "2"]
      = some ⟨false, .run ["a", "b", "c"] config false false⟩ := by cbv
  have hinOrder : Invocation.read? ["run", "-jb2", "a", "b", "c"]
      = some ⟨false, .run ["a", "b", "c"] config false true⟩ := by cbv
  have hinTurns : Invocation.read? ["run", "--interleave", "-j", "a", "b", "c", "--budget=2"]
      = some ⟨false, .run ["a", "b", "c"] config true true⟩ := by cbv
  obtain ⟨o₁, o₂, o₃, h₁, h₂, h₃, hout₃, hout₂, hout₁, he₂, he₁, hexit⟩ :=
    sequential_run_agrees .plain hfiles hplain hinOrder hinTurns
  rw [hall] at hout₃ hout₂ hout₁ hexit
  refine ⟨hfiles, o₁, o₂, o₃, h₁, h₂, h₃, hout₃, hout₂, ?_, he₂, he₁, ?_⟩
  · rw [hout₁]
    rfl
  · rw [ne_eq, hexit]
    intro h
    have := h second (by simp)
    cases this

end Command

end StackMachine
