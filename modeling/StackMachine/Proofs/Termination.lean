import Mathlib
import StackMachine.Proofs.Atomicity
import StackMachine.Proofs.Turns

/-!
# The scheduler always ends

Neither loop of the scheduler counts anything down. What ends them is that a turn after which its
process is still running has moved it a whole budget towards the end of its program. So each process
has at most as many turns as whole budgets are left of its program, and one more, whatever the limit
on slices, and in whatever state operations have left the machine.

* **`Machine.Reachable.forall_entry`**: what calls keep of a process, operations keep of all entries.
* **`Process.run_ne_running`**: a budget that reaches beyond the end of the program ends the process.
* **`Machine.scheduling_ends`**: the headline.
-/

namespace StackMachine

namespace Machine

/-! ## What the operations do to the entries -/

/-- **The invariant of the entries.** What holds of every fresh entry and is kept by calls, counted as
slices or not, holds of every entry that operations lead to. -/
theorem Reachable.forall_entry {P : Entry → Prop} {m : Machine} (hm : m.Reachable)
    (hfresh : ∀ (pid : Nat) (prog : Program) (name : SinkName), P ⟨pid, prog.start, 0, name⟩)
    (hcall : ∀ (e : Entry) (out : Sink) (budget : Int) (slices : Nat), P e →
      P { e with process := (e.process.run out budget).process, slices := slices }) :
    ∀ e ∈ m.table, P e := by
  -- a turn that leaves its process running is a call, and so is the direct run
  have hact (m : Machine) (hm : m.Reachable) (a : Action) (ih : ∀ e ∈ m.table, P e) :
      ∀ e ∈ (m.act a).table, P e := by
    refine forall_mem_act hm.ascending a hfresh ?_ ?_ ih
    · intro e out he hr
      rw [(Entry.turn_of_running hr).2]
      exact hcall e out m.config.stepBudget (e.slices + 1) he
    · intro pid budget _ e out he
      exact hcall e out budget e.slices he
  induction hm with
  | start config => nofun
  | load hm prog name ih => exact hact _ hm (.load prog name) ih
  | run hm pid ih => exact hact _ hm (.run pid) ih
  | runAll hm ih => exact hact _ hm .runAll ih
  | stepProcess hm pid budget ih => exact hact _ hm (.call pid budget) ih
  | setConfig hm config ih => exact hact _ hm (.setConfig config) ih
  | setSink hm name sink ih => exact hact _ hm (.setSink name sink) ih

/-- Every process in the table is one that calls lead to, so what holds of reachable processes
holds in every table. -/
theorem Reachable.process {m : Machine} (hm : m.Reachable) :
    ∀ e ∈ m.table, Process.Reachable e.process.program e.process := by
  refine hm.forall_entry (fun pid prog name => .refl) ?_
  intro e out budget slices he
  have hnext := Process.Reaches.run he out budget
  have hprogram : (e.process.run out budget).process.program = e.process.program :=
    (Process.Reachable.within hnext).1
  show Process.Reachable (e.process.run out budget).process.program _
  rw [hprogram]
  exact hnext

end Machine

/-- A call that may take more steps than the program has instructions left does not come back
running. -/
theorem Process.run_ne_running {p : Process} {budget : Int}
    (h : (p.program.length : Int) - p.ip < budget) (out : Sink) :
    (p.run out budget).outcome ≠ .running := by
  intro hr
  obtain ⟨hremaining, hpos⟩ := remaining_run hr
  unfold remaining at hremaining
  omega

namespace Machine

/-! ## The three parts -/

/-- No process is past the end of its program, so the bound is what integers say it is: the
natural subtraction in `turnBound` does not cut anything off. -/
theorem Reachable.turnBound_eq {m : Machine} (hm : m.Reachable) {e : Entry} (he : e ∈ m.table) :
    (e.turnBound m.config : Int)
      = ((e.process.program.length : Int) - e.process.ip) / m.config.stepBudget + 1 := by
  have hwithin : e.process.ip ≤ e.process.program.length := (hm.process e he).within.2
  rw [Entry.turnBound, Int.natCast_add, Int.natCast_ediv, Int.ofNat_sub hwithin]
  rfl

/-- All turns of `run` are of its process, so there are no more of them than its bound. This is
`count_le` for a list in which everything counts. -/
theorem Ascending.length_runTurns_le {m : Machine} (hm : m.Ascending) {pid : Int} {e : Entry}
    (h : m.find? pid = some e) : (m.runTurns pid).length ≤ e.turnBound m.config := by
  obtain ⟨-, htakes, front, last, hturns, hfront, hlast, -⟩ := runTurns_spec hm h
  have hown : ∀ t ∈ m.runTurns pid, decide (t.pid = e.pid) = true := by
    intro t ht
    rw [hturns, List.mem_append, List.mem_singleton] at ht
    rcases ht with ht | rfl
    · exact decide_eq_true (hfront t ht).1
    · exact decide_eq_true hlast
  rw [← List.countP_eq_length.mpr hown]
  exact htakes.count_le hm e (List.mem_of_find?_eq_some h)

/-- `runAll` comes to its end with an empty table, unless its last turn crashed. In the first case
the results are those of its turns, in their order. -/
theorem Ascending.runAll_cases {m : Machine} (hm : m.Ascending) :
    (m.runAll.2 = .ok (m.runAllTurns.filterMap Turn.result?) ∧ m.runAll.1.table = []
        ∧ ∀ t ∈ m.runAllTurns, t.crash? = none)
      ∨ ∃ c, m.runAll.2 = .error (.crashed c) ∧ ∃ front last, m.runAllTurns = front ++ [last]
        ∧ last.outcome = .crashed c ∧ ∀ t ∈ front, t.crash? = none := by
  obtain ⟨-, -, hanswer, hfront⟩ := runAllTurns_spec hm
  rw [answerAll] at hanswer
  cases hfound : m.runAllTurns.findSome? Turn.crash? with
  | none =>
    rw [hfound] at hanswer
    refine Or.inl ⟨hanswer, ?_, List.findSome?_eq_none_iff.mp hfound⟩
    exact List.map_eq_nil_iff.mp (runAll_ok hanswer).1
  | some c =>
    rw [hfound] at hanswer
    -- there is a last turn, and as no turn before it crashed, it is the one that did
    obtain ⟨front, last, hturns⟩ : ∃ front last, m.runAllTurns = front ++ [last] := by
      rcases List.eq_nil_or_concat' m.runAllTurns with hnil | h
      · rw [hnil] at hfound
        cases hfound
      · exact h
    rw [hturns, List.dropLast_concat] at hfront
    rw [hturns, List.findSome?_append, List.findSome?_eq_none_iff.mpr hfront, Option.none_or,
      List.findSome?_singleton] at hfound
    exact Or.inr ⟨c, hanswer, front, last, hturns, Outcome.crash?_eq_some.mp hfound, hfront⟩

/-! ## The headline -/

/-- **The scheduler always ends.** In every machine that operations lead to, also after processes were
run directly, the configuration was replaced or a crash broke off `runAll`: the loop over one
process ends where `run` does and has taken at most as many turns as whole budgets are left of its
program, and one more, the last of which tells the answer. The loop over all ends where `runAll`
does and has given no process more turns than that. Neither looks up an id that is not in the table.
`runAll` answers with results only when the table is empty, and fails only with a crash that escapes
from the last turn. A call with a budget beyond the end of the program does not come back
running. -/
theorem scheduling_ends {m : Machine} (hm : m.Reachable) :
    (∀ e ∈ m.table, (e.turnBound m.config : Int)
        = ((e.process.program.length : Int) - e.process.ip) / m.config.stepBudget + 1)
      ∧ (∀ e ∈ m.table, ∃ front last, front.length + 1 ≤ e.turnBound m.config
          ∧ (∀ t ∈ front, t.pid = e.pid ∧ t.outcome = .running) ∧ last.pid = e.pid
          ∧ last.outcome ≠ .running ∧ (m.run e.pid).2 = answer last
          ∧ ∀ n, e.turnBound m.config ≤ n → m.loop n e.pid = .ok (front ++ [last], (m.run e.pid).1))
      ∧ (∃ turns, (∀ e ∈ m.table, turns.countP (·.pid = e.pid) ≤ e.turnBound m.config)
          ∧ (∀ t ∈ turns, t.pid ∈ m.pids)
          ∧ (∀ n, (∀ e ∈ m.table, e.turnBound m.config ≤ n) →
              m.passes n = .ok (turns, m.runAll.1))
          ∧ ((m.runAll.2 = .ok (turns.filterMap Turn.result?) ∧ m.runAll.1.table = []
                ∧ ∀ t ∈ turns, t.crash? = none)
            ∨ ∃ c, m.runAll.2 = .error (.crashed c) ∧ ∃ front last, turns = front ++ [last]
                ∧ last.outcome = .crashed c ∧ ∀ t ∈ front, t.crash? = none))
      ∧ ∀ (p : Process) (out : Sink) (budget : Int), (p.program.length : Int) - p.ip < budget →
          (p.run out budget).outcome ≠ .running := by
  have hasc := hm.ascending
  refine ⟨fun e he => hm.turnBound_eq he, ?_, ?_, fun p out budget h => p.run_ne_running h out⟩
  · intro e he
    obtain ⟨before, after, htable⟩ := List.append_of_mem he
    have hfind := (hasc.holds htable).find?
    have hlength := hasc.length_runTurns_le hfind
    obtain ⟨hloop, -, front, last, hturns, hfront, hlast, hended, hanswer⟩ := runTurns_spec hasc hfind
    rw [hturns] at hlength hloop
    exact ⟨front, last, by simpa using hlength, hfront, hlast, hended, hanswer, hloop⟩
  · obtain ⟨hpasses, htakes, -, -⟩ := runAllTurns_spec hasc
    exact ⟨m.runAllTurns, htakes.count_le hasc, htakes.pid_mem hasc, hpasses, hasc.runAll_cases⟩

/-- A closed sink breaks off `runAll` after the turn of the first process and before that of the third,
which is then run directly. Under a smaller budget both have turns left, and the scheduler ends. -/
theorem scheduling_ends_after_break :
    let print : Program := [.push (.ofInt .int8 65 (by decide)), .print, .exit]
    let closed := ((((start (.withBudget 2 (by decide))).load [.noop, .noop, .noop, .exit] .shared).load
      print .shared).load [.noop, .noop, .exit] .shared).setSink .shared Sink.empty.close
    let m : Machine :=
      { (closed.runAll.1.stepProcess 3 1).1 with config := .withBudget 1 (by decide) }
    m.Reachable ∧ m.table.map (fun e => (e.pid, e.turnBound m.config)) = [(1, 3), (3, 3)]
      ∧ ∃ turns, m.passes 3 = .ok (turns, m.runAll.1) ∧ turns.map Turn.pid = [1, 3, 1, 3]
        ∧ m.runAll.1.table = [] := by
  intro print closed m
  have hm : m.Reachable := by
    refine .setConfig (.stepProcess (.runAll (.setSink (.load (.load (.load ?_ _ _) _ _) _ _) _ _)) _ _) _
    exact .start _
  have hbounds : m.table.map (fun e => (e.pid, e.turnBound m.config)) = [(1, 3), (3, 3)] := by cbv
  have hle : ∀ e ∈ m.table, e.turnBound m.config ≤ 3 := by
    intro e he
    have hmem := List.mem_map_of_mem (f := fun e => (e.pid, e.turnBound m.config)) he
    rw [hbounds] at hmem
    simp only [List.mem_cons, Prod.mk.injEq, List.not_mem_nil, or_false] at hmem
    omega
  obtain ⟨-, -, ⟨turns, -, -, hpasses, hends⟩, -⟩ := scheduling_ends hm
  have hturns : (m.passes 3).map (fun r => r.1.map Turn.pid) = .ok [1, 3, 1, 3] := by cbv
  have hanswer : m.runAll.2 = .ok [⟨1, 4, 3, none⟩, ⟨3, 3, 2, none⟩] := by cbv
  rw [hpasses 3 hle] at hturns
  refine ⟨hm, hbounds, turns, hpasses 3 hle, Except.ok.inj hturns, ?_⟩
  rcases hends with ⟨-, hempty, -⟩ | ⟨c, herror, -⟩
  · exact hempty
  · rw [hanswer] at herror
    cases herror

end Machine

end StackMachine
