import Mathlib
import StackMachine.Machine.Request
import StackMachine.Proofs.Histories

/-!
# Every id is accounted for

Each id that a machine has given out is either in its table or in exactly one of the results that it
has reported. Loading opens an account; `run` closes one, `runAll` closes all that are open; nothing
else touches them. An account that is closed stays closed, because ids are never given out again.

* **`Machine.Leads`**: operations that lead from one machine to another, with the ids given out and
  the results reported on the way.
* **`pids_runRound_perm`**, **`pids_runRounds_perm`**: turns that no crash breaks off report
  each process that leaves the table.
* **`Machine.Balanced`**: the account of all ids, kept by every operation.
* **`Machine.Leads.noReturn`**: what is in the table later was there before, or came later.
* **`Machine.Leads.answers`**: what requests are answered with is such a history.
* **`Machine.ids_conserved`**: the headline.
-/

namespace StackMachine

/-! ## Ids through slices and turns -/

/-- The turns of a process to its end report the process that they were given to. Induction on the
recursion of `runToEnd`. -/
theorem Entry.pid_runToEnd (e : Entry) (config : Config) (out : Sink) :
    (e.runToEnd config out).entry.pid = e.pid := by
  fun_induction runToEnd e config out with
  | case1 e out s hr ih => exact ih.trans (pid_slice e config out)
  | case2 e out s hr => exact pid_slice e config out

/-- A round that is not broken off reports every process that it takes out of the table: the ids
that are finished and those that stay are together the ids there were. Induction over the table. A
crash has to be excluded, because the process that crashed leaves the table unreported. -/
theorem pids_runRound_perm {config : Config} {table : List Entry} {sinks : Sinks}
    (h : (runRound config table sinks).crash = none) :
    ((runRound config table sinks).finished.map (·.pid)
        ++ (runRound config table sinks).table.map (·.pid)).Perm (table.map (·.pid)) := by
  induction table generalizing sinks with
  | nil => exact .refl _
  | cons e es ih =>
    simp only [runRound] at h ⊢
    split at h
    · rw [Round.keep, List.map_cons, List.map_cons, Entry.pid_slice]
      exact List.perm_middle.trans ((ih h).cons e.pid)
    · cases h
    · rw [Round.finish, List.map_cons, List.map_cons, Slice.result, Entry.pid_slice, List.cons_append]
      exact (ih h).cons e.pid

/-- Turns that are not broken off report every process and leave none. Induction on the recursion
of `runRounds`: each round moves some ids from the table to the results. -/
theorem pids_runRounds_perm (config : Config) (table : List Entry) (sinks : Sinks) :
    (runRounds config table sinks).crash = none →
      (runRounds config table sinks).table = []
        ∧ ((runRounds config table sinks).finished.map (·.pid)).Perm (table.map (·.pid)) := by
  fun_induction runRounds config table sinks with
  | case1 sinks => exact fun _ => ⟨rfl, .refl _⟩
  | case2 e es sinks r hcrash =>
    intro h
    rw [h] at hcrash
    cases hcrash
  | case3 e es sinks r hcalm rest ih =>
    intro h
    obtain ⟨hempty, hperm⟩ := ih h
    have hround : (r.finished.map (·.pid) ++ r.table.map (·.pid)).Perm ((e :: es).map (·.pid)) :=
      pids_runRound_perm (by simpa using hcalm)
    refine ⟨hempty, ?_⟩
    rw [List.map_append]
    exact (hperm.append_left _).trans hround

namespace Machine

/-! ## What the operations do to the table -/

/-- The table is searched by id, so nothing is found just when the id is not in it. -/
theorem find?_eq_none {m : Machine} {pid : Nat} : m.find? pid = none ↔ pid ∉ m.pids := by
  simp [find?, pids, List.find?_eq_none]

/-- A process that is not in the table cannot be run, and the attempt leaves the machine as it is.
-/
theorem run_of_not_mem {m : Machine} {pid : Nat} (h : pid ∉ m.pids) :
    m.run pid = (m, .error (.unknownProcess pid)) := by
  simp only [run, find?_eq_none.mpr h]

/-- A reported process was in the table and is taken out of it. The other ids stay, and none is
given out. -/
theorem run_ok {m : Machine} {pid : Int} {r : Result} (h : (m.run pid).2 = .ok r) :
    r.pid ∈ m.pids ∧ (m.run pid).1.pids = m.pids.filter (· != r.pid)
      ∧ (m.run pid).1.lastPid = m.lastPid := by
  cases hfind : m.find? pid with
  | none =>
    simp only [run, hfind] at h
    cases h
  | some e =>
    simp only [run, hfind] at h ⊢
    split at h
    · cases h
    · cases h
      -- the result carries the id of the entry that was found
      have hpid : (e.runToEnd m.config (m.sinks.get e.sink)).result.pid = e.pid :=
        e.pid_runToEnd m.config (m.sinks.get e.sink)
      refine ⟨?_, ?_, rfl⟩
      · rw [hpid]
        exact List.mem_map_of_mem (List.mem_of_find?_eq_some hfind)
      · rw [hpid]
        simp only [pids, setSink, remove, List.filter_map, decide_not]
        rfl

/-- A refused request changes nothing, so it neither issues nor reports an id. -/
theorem run_unknown {m : Machine} {pid pid' : Int}
    (h : (m.run pid).2 = .error (.unknownProcess pid')) : (m.run pid).1 = m := by
  cases hfind : m.find? pid with
  | none => simp only [run, hfind]
  | some e =>
    simp only [run, hfind] at h
    split at h <;> cases h

/-- All processes are reported, each once, and the table is empty. The order of the results is
that in which the processes ended, hence the permutation. -/
theorem runAll_ok {m : Machine} {results : List Result} (h : m.runAll.2 = .ok results) :
    m.runAll.1.pids = [] ∧ (results.map (·.pid)).Perm m.pids ∧ m.runAll.1.lastPid = m.lastPid := by
  simp only [runAll] at h
  split at h
  · cases h
  · next hcalm =>
    cases h
    obtain ⟨hempty, hperm⟩ := pids_runRounds_perm m.config m.table m.sinks hcalm
    refine ⟨?_, hperm, rfl⟩
    show (runRounds m.config m.table m.sinks).table.map (·.pid) = []
    rw [hempty, List.map_nil]

/-- The direct run of a process leaves the ids in the table as they are, also where the process
ends: only `run` and `runAll` take processes out. -/
theorem stepProcess_table (m : Machine) (pid budget : Int) :
    (m.stepProcess pid budget).1.pids = m.pids
      ∧ (m.stepProcess pid budget).1.lastPid = m.lastPid := by
  cases hfind : m.find? pid with
  | none => simp only [stepProcess, hfind, and_self]
  | some e =>
    simp only [stepProcess, hfind]
    exact ⟨pids_replace m _, rfl⟩

/-! ## Histories with what they have told -/

/-- Operations lead from `m₀` to this machine. On the way the ids `issued` were given out and the
results `reported` were reported, in this order. No crash has ended `run` or
`runAll`; one that ends the direct run of a process does no harm. Looking at a process changes
nothing, and what its holder does to a process that has left the table shows in the sinks only. -/
inductive Leads (m₀ : Machine) : Machine → List Nat → List Result → Prop where
  | refl : Leads m₀ m₀ [] []
  | load {m : Machine} {issued : List Nat} {reported : List Result} (h : Leads m₀ m issued reported)
      (prog : Program) (name : SinkName) :
      Leads m₀ (m.load prog name) (issued ++ [m.nextPid]) reported
  | run {m : Machine} {issued : List Nat} {reported : List Result} (h : Leads m₀ m issued reported)
      {pid : Int} {r : Result} (hr : (m.run pid).2 = .ok r) :
      Leads m₀ (m.run pid).1 issued (reported ++ [r])
  | runUnknown {m : Machine} {issued : List Nat} {reported : List Result}
      (h : Leads m₀ m issued reported) {pid pid' : Int}
      (hr : (m.run pid).2 = .error (.unknownProcess pid')) : Leads m₀ (m.run pid).1 issued reported
  | runAll {m : Machine} {issued : List Nat} {reported results : List Result}
      (h : Leads m₀ m issued reported) (hr : m.runAll.2 = .ok results) :
      Leads m₀ m.runAll.1 issued (reported ++ results)
  | stepProcess {m : Machine} {issued : List Nat} {reported : List Result}
      (h : Leads m₀ m issued reported) (pid budget : Int) :
      Leads m₀ (m.stepProcess pid budget).1 issued reported
  | setConfig {m : Machine} {issued : List Nat} {reported : List Result}
      (h : Leads m₀ m issued reported) (config : Config) :
      Leads m₀ { m with config := config } issued reported
  | setSink {m : Machine} {issued : List Nat} {reported : List Result}
      (h : Leads m₀ m issued reported) (name : SinkName) (sink : Sink) :
      Leads m₀ (m.setSink name sink) issued reported

/-- A history is a run of the machine, so all that holds of reachable machines holds at its end.
-/
theorem Leads.reachable {m₀ m : Machine} {issued : List Nat} {reported : List Result}
    (h : Leads m₀ m issued reported) (h₀ : m₀.Reachable) : m.Reachable := by
  induction h with
  | refl => exact h₀
  | load _ prog name ih => exact ih.load prog name
  | run _ _ ih => exact ih.run _
  | runUnknown _ _ ih => exact ih.run _
  | runAll _ _ ih => exact ih.runAll
  | stepProcess _ pid budget ih => exact ih.stepProcess pid budget
  | setConfig _ config ih => exact ih.setConfig config
  | setSink _ name sink ih => exact ih.setSink name sink

/-! ## Histories of requests

What a machine answers to requests tells the ids and the results. -/

/-- The id that an answer gives out. -/
def issuedBy : Except Refusal Response → List Nat
  | .ok (.loaded pid) => [pid]
  | _ => []

/-- The results that an answer reports. -/
def reportedBy : Except Refusal Response → List Result
  | .ok (.ended r) => [r]
  | .ok (.allEnded results) => results
  | _ => []

/-- The machine after some requests. -/
def afterAll (m : Machine) (requests : List Request) : Machine :=
  requests.foldl (fun m request => (m.perform request).1) m

/-- What it has answered to them. -/
def answers (m : Machine) (requests : List Request) : List (Except Refusal Response) :=
  (m.performAll requests).map (·.2)

namespace Leads

variable {m₀ m : Machine} {issued : List Nat} {reported : List Result}

/-- What leads to the same machine with nothing more told. It serves the requests that neither
give out an id nor report a process, whose histories end in an empty list appended. -/
theorem of_silent {m' : Machine} {answer : Except Refusal Response} (h : Leads m₀ m' issued reported)
    (hissued : issuedBy answer = []) (hreported : reportedBy answer = []) :
    Leads m₀ m' (issued ++ issuedBy answer) (reported ++ reportedBy answer) := by
  rwa [hissued, hreported, List.append_nil, List.append_nil]

/-- **Every request is an operation**, and its answer is what the operation tells. One case for
each request; a request that is refused, or only asks, leads to the same machine. -/
theorem perform (h : Leads m₀ m issued reported) (request : Request)
    (hcalm : ∀ c, (m.perform request).2 ≠ .error (.machine (.crashed c))) :
    Leads m₀ (m.perform request).1 (issued ++ issuedBy (m.perform request).2)
      (reported ++ reportedBy (m.perform request).2) := by
  -- requests that only ask, or are refused, lead to the same machine with nothing more told
  cases request with
  | load source sink =>
    simp only [Machine.perform, openSink]
    split
    · exact (h.setSink _ _).of_silent rfl rfl
    · simpa [issuedBy, reportedBy] using (h.setSink _ _).load _ _
  | run pid =>
    simp only [Machine.perform] at hcalm ⊢
    cases hr : (m.run pid).2 with
    | ok r => simpa [issuedBy, reportedBy, Except.map, Except.mapError] using h.run hr
    | error e =>
      cases e with
      | unknownProcess pid' => exact (h.runUnknown hr).of_silent rfl rfl
      | crashed c => exact absurd (by rw [hr]; rfl) (hcalm c)
  | runAll =>
    simp only [Machine.perform] at hcalm ⊢
    cases hr : m.runAll.2 with
    | ok results => simpa [issuedBy, reportedBy, Except.map, Except.mapError] using h.runAll hr
    | error e =>
      cases e with
      | unknownProcess pid' =>
        simp only [Machine.runAll] at hr
        split at hr <;> cases hr
      | crashed c => exact absurd (by rw [hr]; rfl) (hcalm c)
  | get pid =>
    simp only [Machine.perform]
    split <;> exact h.of_silent rfl rfl
  | step pid budget =>
    have hstep := h.stepProcess pid budget
    simp only [Machine.perform]
    split <;> exact hstep.of_silent rfl rfl
  | contains pid => exact h.of_silent rfl rfl
  | showConfig => exact h.of_silent rfl rfl
  | setConfig stepBudget maxSlices =>
    simp only [Machine.perform]
    split
    · exact h.of_silent rfl rfl
    · exact (h.setConfig _).of_silent rfl rfl
  | closeShared => exact (h.setSink _ _).of_silent rfl rfl

/-- **Every sequence of requests is a history.** Induction over the requests, with the ids and
results of each put behind those of the ones before. -/
theorem answers (h : Leads m₀ m issued reported) (requests : List Request)
    (hcalm : ∀ c, .error (.machine (.crashed c)) ∉ m.answers requests) :
    Leads m₀ (m.afterAll requests) (issued ++ (m.answers requests).flatMap issuedBy)
      (reported ++ (m.answers requests).flatMap reportedBy) := by
  induction requests generalizing m issued reported with
  | nil =>
    show Leads m₀ m (issued ++ []) (reported ++ [])
    rwa [List.append_nil, List.append_nil]
  | cons request requests ih =>
    have hcons : m.answers (request :: requests)
        = (m.perform request).2 :: (m.perform request).1.answers requests := rfl
    simp only [hcons, List.mem_cons, not_or] at hcalm
    rw [hcons, List.flatMap_cons, List.flatMap_cons, ← List.append_assoc, ← List.append_assoc]
    exact ih (h.perform request fun c => Ne.symm (hcalm c).1) fun c => (hcalm c).2

end Leads

/-! ## The account of all ids -/

/-- The ids are given out in order, and each of them is in the table or in one result. -/
structure Balanced (m : Machine) (issued : List Nat) (reported : List Result) : Prop where
  issued_eq : issued = List.range' 1 m.lastPid
  accounts : (reported.map (·.pid) ++ m.pids).Perm issued

namespace Balanced

variable {m : Machine} {issued : List Nat} {reported : List Result}

theorem start (config : Config) : Balanced (start config) [] [] :=
  ⟨rfl, .refl _⟩

/-- Loading gives out the next id and puts it into the table. It is larger than all before, so it
was in no result. -/
theorem load (h : Balanced m issued reported) (prog : Program) (name : SinkName) :
    Balanced (m.load prog name) (issued ++ [m.nextPid]) reported where
  issued_eq := by
    show issued ++ [m.nextPid] = List.range' 1 (m.lastPid + 1)
    rw [List.range'_1_concat, h.issued_eq, nextPid, Nat.add_comm m.lastPid 1]
  accounts := by
    rw [pids_load, ← List.append_assoc]
    exact h.accounts.append_right [m.nextPid]

/-- What takes some ids out of the table and reports just these keeps the account. `run` and
`runAll` are of this form. -/
theorem report (h : Balanced m issued reported) {m' : Machine} {results : List Result}
    (hpids : (results.map (·.pid) ++ m'.pids).Perm m.pids) (hlast : m'.lastPid = m.lastPid) :
    Balanced m' issued (reported ++ results) where
  issued_eq := hlast ▸ h.issued_eq
  accounts := by
    rw [List.map_append, List.append_assoc]
    exact (hpids.append_left _).trans h.accounts

/-- What leaves the ids in the table alone keeps the account. The case of `report` with nothing to
report. -/
theorem keep (h : Balanced m issued reported) {m' : Machine} (hpids : m'.pids = m.pids)
    (hlast : m'.lastPid = m.lastPid) : Balanced m' issued reported :=
  ⟨hlast ▸ h.issued_eq, hpids ▸ h.accounts⟩

end Balanced

/-- **The account is kept by every operation.** Induction over the history, with one of the lemmas
above for each operation. Crashes do not occur in a history: what they take out of the table is
not reported. -/
theorem Leads.balanced {m₀ m : Machine} {issued : List Nat} {reported : List Result}
    (h : Leads m₀ m issued reported) (hm : m₀.Reachable) (h₀ : Balanced m₀ [] []) :
    Balanced m issued reported := by
  induction h with
  | refl => exact h₀
  | load _ prog name ih => exact ih.load prog name
  | @run m issued reported h pid r hr ih =>
    obtain ⟨hmem, hpids, hlast⟩ := run_ok hr
    refine ih.report ?_ hlast
    -- the id stands in the table once, so taking it out takes out one entry
    have hnodup : m.pids.Nodup := (h.reachable hm).ascending.pids.imp Nat.ne_of_lt
    rw [hpids, ← hnodup.erase_eq_filter]
    exact (List.perm_cons_erase hmem).symm
  | runUnknown _ hr ih => rwa [run_unknown hr]
  | runAll _ hr ih =>
    obtain ⟨hempty, hperm, hlast⟩ := runAll_ok hr
    refine ih.report ?_ hlast
    rwa [hempty, List.append_nil]
  | stepProcess _ pid budget ih =>
    obtain ⟨hpids, hlast⟩ := stepProcess_table _ pid budget
    exact ih.keep hpids hlast
  | setConfig _ config ih => exact ih.keep rfl rfl
  | setSink _ name sink ih => exact ih.keep rfl rfl

/-! ## No id comes back -/

/-- What is in the table later was there before, or has been given out since. -/
structure NoReturn (m₀ m : Machine) (issued : List Nat) : Prop where
  lastPid_le : m₀.lastPid ≤ m.lastPid
  pid_of_mem : ∀ pid ∈ m.pids, pid ∈ m₀.pids ∨ m₀.lastPid < pid
  issued_lt : ∀ pid ∈ issued, m₀.lastPid < pid

/-- What does not add to the table brings no id back into it. -/
theorem NoReturn.of_subset {m₀ m m' : Machine} {issued : List Nat} (h : NoReturn m₀ m issued)
    (hpids : ∀ pid ∈ m'.pids, pid ∈ m.pids) (hlast : m'.lastPid = m.lastPid) :
    NoReturn m₀ m' issued where
  lastPid_le := hlast ▸ h.lastPid_le
  pid_of_mem pid hpid := h.pid_of_mem pid (hpids pid hpid)
  issued_lt := h.issued_lt

/-- Loading adds an id that is larger than all that were given out before. -/
theorem NoReturn.load {m₀ m : Machine} {issued : List Nat} (h : NoReturn m₀ m issued)
    (prog : Program) (name : SinkName) :
    NoReturn m₀ (m.load prog name) (issued ++ [m.nextPid]) := by
  have hnew : m₀.lastPid < m.nextPid := Nat.lt_succ_of_le h.lastPid_le
  refine ⟨Nat.le_of_lt hnew, ?_, ?_⟩
  · intro pid hpid
    rw [pids_load, List.mem_append, List.mem_singleton] at hpid
    rcases hpid with hold | rfl
    · exact h.pid_of_mem pid hold
    · exact Or.inr hnew
  · intro pid hpid
    rw [List.mem_append, List.mem_singleton] at hpid
    rcases hpid with hold | rfl
    · exact h.issued_lt pid hold
    · exact hnew

/-- **An id that has left the table stays out of it.** Induction over the history. Only `load`
adds an id, and this one is new. -/
theorem Leads.noReturn {m₀ m : Machine} {issued : List Nat} {reported : List Result}
    (h : Leads m₀ m issued reported) : NoReturn m₀ m issued := by
  -- only `load` adds to the table; all other operations leave a part of it
  induction h with
  | refl => exact ⟨Nat.le_refl _, fun _ hpid => Or.inl hpid, nofun⟩
  | load _ prog name ih => exact ih.load prog name
  | run _ hr ih =>
    obtain ⟨-, hpids, hlast⟩ := run_ok hr
    refine ih.of_subset (fun pid hpid => ?_) hlast
    rw [hpids] at hpid
    exact (List.mem_filter.mp hpid).1
  | runUnknown _ hr ih => rwa [run_unknown hr]
  | runAll _ hr ih =>
    obtain ⟨hempty, -, hlast⟩ := runAll_ok hr
    refine ih.of_subset (fun pid hpid => ?_) hlast
    rw [hempty] at hpid
    cases hpid
  | stepProcess _ pid budget ih =>
    obtain ⟨hpids, hlast⟩ := stepProcess_table _ pid budget
    exact ih.of_subset (fun _ hpid => hpids ▸ hpid) hlast
  | setConfig _ config ih => exact ih.of_subset (fun _ hpid => hpid) rfl
  | setSink _ name sink ih => exact ih.of_subset (fun _ hpid => hpid) rfl

/-! ## The headline -/

/-- **No id is reused and no outcome is lost or reported twice.** After any operations on a new
machine in which no crash has ended `run` or `runAll`: the ids given out are `1`, `2`, `3`, …
in this order; those in the table are some of them, in ascending order; only ids given out have
results; and each of them is in the table and has no result, or is not in the table and has exactly
one. An id that has left the table is never seen there again and never given out again, and running
it is refused and changes nothing. -/
theorem ids_conserved {config : Config} {m : Machine} {issued : List Nat} {reported : List Result}
    (h : Leads (start config) m issued reported) :
    issued = List.range' 1 issued.length
      ∧ (∀ pid ∈ m.pids, pid ∈ issued) ∧ m.pids.Pairwise (· < ·)
      ∧ (∀ r ∈ reported, r.pid ∈ issued)
      ∧ (∀ pid ∈ issued,
          (pid ∈ m.pids ∧ (reported.map (·.pid)).count pid = 0)
            ∨ (pid ∉ m.pids ∧ (reported.map (·.pid)).count pid = 1))
      ∧ ∀ pid ∈ issued, pid ∉ m.pids → ∀ m' issued' reported', Leads m m' issued' reported' →
          pid ∉ m'.pids ∧ pid ∉ issued' ∧ m'.run pid = (m', .error (.unknownProcess pid)) := by
  have hreach : m.Reachable := h.reachable (.start config)
  have hbal := h.balanced (.start config) (.start config)
  have hmem : ∀ pid, pid ∈ issued ↔ pid ∈ reported.map (·.pid) ∨ pid ∈ m.pids := by
    intro pid
    rw [← hbal.accounts.mem_iff, List.mem_append]
  have hissued : ∀ pid ∈ issued, pid ≤ m.lastPid := by
    intro pid hpid
    rw [hbal.issued_eq, List.mem_range'_1] at hpid
    omega
  refine ⟨?_, ?_, hreach.ascending.pids, ?_, ?_, ?_⟩
  · have hlength : issued.length = m.lastPid := by rw [hbal.issued_eq, List.length_range']
    rw [hlength]
    exact hbal.issued_eq
  · exact fun pid hpid => (hmem pid).mpr (Or.inr hpid)
  · exact fun r hr => (hmem r.pid).mpr (Or.inl (List.mem_map_of_mem hr))
  · intro pid hpid
    -- the account holds the id once, in the results or in the table
    have hcount : (reported.map (·.pid)).count pid + m.pids.count pid = 1 := by
      rw [← List.count_append, hbal.accounts.count_eq, hbal.issued_eq]
      exact List.count_eq_one_of_mem List.nodup_range' (by rwa [← hbal.issued_eq])
    by_cases htable : pid ∈ m.pids
    · have hpos := List.count_pos_iff.mpr htable
      exact Or.inl ⟨htable, by omega⟩
    · have hzero := List.count_eq_zero.mpr htable
      exact Or.inr ⟨htable, by omega⟩
  · intro pid hpid hgone m' issued' reported' hlater
    have hret := hlater.noReturn
    have hle := hissued pid hpid
    have hnot : pid ∉ m'.pids := by
      intro hback
      rcases hret.pid_of_mem pid hback with hthere | hnew
      · exact hgone hthere
      · omega
    refine ⟨hnot, ?_, run_of_not_mem hnot⟩
    intro hagain
    have := hret.issued_lt pid hagain
    omega

/-- Two processes are loaded, the second is run, and a request for it is refused. The results tell
which of them is left, and no history that goes on from there brings the second one back. -/
theorem ids_conserved_after_run :
    let requests : List Request := [.load "noop\nexit" none, .load "exit" none, .run 2, .run 2]
    let m := (start .standard).afterAll requests
    Leads (start .standard) m [1, 2] [⟨2, 1, 1, none⟩] ∧ 1 ∈ m.pids ∧ 2 ∉ m.pids
      ∧ ∀ m' issued reported, Leads m m' issued reported →
          2 ∉ issued ∧ m'.run 2 = (m', .error (.unknownProcess 2)) := by
  intro requests m
  have hanswers : (start .standard).answers requests
      = [.ok (.loaded 1), .ok (.loaded 2), .ok (.ended ⟨2, 1, 1, none⟩),
          .error (.machine (.unknownProcess 2))] := by cbv
  have hm : Leads (start .standard) m [1, 2] [⟨2, 1, 1, none⟩] := by
    have h := Leads.answers (.refl : Leads (start .standard) _ [] []) requests (by simp [hanswers])
    rwa [hanswers] at h
  obtain ⟨-, -, -, -, haccounts, hgone⟩ := ids_conserved hm
  have hfirst : 1 ∈ m.pids := by simpa using haccounts 1 (by decide)
  have hsecond : 2 ∉ m.pids := by simpa using haccounts 2 (by decide)
  exact ⟨hm, hfirst, hsecond, fun m' issued reported h =>
    (hgone 2 (by decide) hsecond m' issued reported h).2⟩

end Machine

end StackMachine
