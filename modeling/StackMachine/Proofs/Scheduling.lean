import Mathlib.Algebra.Order.Floor.Div
import StackMachine.Machine.Basic
import StackMachine.Proofs.Lifetime

/-!
# What a scheduled process reports

A machine runs a process in slices, but the process does not notice: what its result says is known
from a lone run of the same program and from the number of slices its lifetime fills. The budget of
a slice enters through that number only.

* **`Entry.runToEnd_of_room`**, **`Entry.runToEnd_of_limit`**: the loop over the slices, when the
  slices allowed are enough for the lifetime and when they are not.
* **`Run.slicesNeeded_eq`**: exits and failures round differently, since a failing step is not
  counted among the steps but takes its place in a slice. Both are the lifetime, rounded up.
* **`Machine.run_closed_form`**: the headline.
-/

namespace StackMachine

/-! ## Sinks by name -/

namespace Sinks

@[simp] theorem get_set_self (s : Sinks) (name : SinkName) (sink : Sink) :
    (s.set name sink).get name = sink := by
  simp [get, set]

/-- A sink that is set leaves the others alone, so that processes with different sinks do not
disturb each other. -/
theorem get_set_of_ne (s : Sinks) {name other : SinkName} (h : other ≠ name) (sink : Sink) :
    (s.set name sink).get other = s.get other := by
  have hfind : (s.used.filter (·.1 ≠ name)).find? (·.1 = other) = s.used.find? (·.1 = other) := by
    rw [List.find?_filter]
    congr 1
    funext x
    by_cases hx : x.1 = other
    · simp [hx, h]
    · simp [hx]
  simp only [get, set]
  rw [List.find?_cons_of_neg (by simpa using Ne.symm h), hfind]

end Sinks

/-! ## Slices and limits -/

namespace Config

/-- No limit is reached as long as fewer slices were taken than any limit allows. -/
theorem reachedLimit?_eq_none {config : Config} {slices : Nat} :
    config.reachedLimit? slices = none ↔ ∀ limit ∈ config.maxSlices, slices < limit := by
  simp [reachedLimit?, Option.filter_eq_none_iff]

theorem reachedLimit?_of_le {config : Config} {slices limit : Nat}
    (hmax : config.maxSlices = some limit) (h : limit ≤ slices) :
    config.reachedLimit? slices = some limit := by
  simp [reachedLimit?, hmax, h]

end Config

/-- A lifetime that fits into one slice takes one. -/
theorem ceilDiv_eq_one {n b : Nat} (hn : 0 < n) (h : n ≤ b) : n ⌈/⌉ b = 1 := by
  rw [Nat.ceilDiv_eq_add_pred_div]
  exact Nat.div_eq_of_lt_le (by omega) (by omega)

/-- A lifetime that goes on after one slice takes as many slices as what is left, and that one. -/
theorem ceilDiv_eq_succ {n b : Nat} (hb : 0 < b) (h : b < n) :
    n ⌈/⌉ b = (n - b) ⌈/⌉ b + 1 := by
  rw [Nat.ceilDiv_eq_add_pred_div, Nat.ceilDiv_eq_add_pred_div,
    show n + b - 1 = (n - b + b - 1) + b by omega, Nat.add_div_right _ hb]

namespace Entry

/-- A slice of a running process that may have one is a call with the configured budget, and it is
counted. -/
theorem slice_of_room {e : Entry} {config : Config} (hrun : e.process.status = .running)
    (hroom : ∀ limit ∈ config.maxSlices, e.slices < limit) (out : Sink) :
    e.slice config out =
      ⟨{ e with
          process := (Process.runSteps config.stepBudget e.process out).process
          slices := e.slices + 1 },
        (Process.runSteps config.stepBudget e.process out).sink,
        (Process.runSteps config.stepBudget e.process out).outcome⟩ := by
  have hcall := Process.run_natCast hrun out config.stepBudget_pos
  simp only [slice, Config.reachedLimit?_eq_none.mpr hroom, hcall]

/-- A process that has had all its slices is refused another one. The refusal is a failure in its
result, but the process itself is left as it was. -/
theorem slice_of_limit {e : Entry} {config : Config} {limit : Nat}
    (hmax : config.maxSlices = some limit) (h : limit ≤ e.slices) (out : Sink) :
    e.slice config out = ⟨e, out, .failed (.sliceLimit limit)⟩ := by
  simp only [slice, Config.reachedLimit?_of_le hmax h]

/-- A slice is refused by the limit, or it is a call of the process. Everything about slices is
read off these two cases. -/
theorem slice_cases (e : Entry) (config : Config) (out : Sink) :
    (∃ limit, config.maxSlices = some limit ∧ limit ≤ e.slices
        ∧ e.slice config out = ⟨e, out, .failed (.sliceLimit limit)⟩)
      ∨ ((∀ limit ∈ config.maxSlices, e.slices < limit)
        ∧ e.slice config out =
          ⟨{ e with
              process := (e.process.run out config.stepBudget).process
              slices := e.slices + 1 },
            (e.process.run out config.stepBudget).sink,
            (e.process.run out config.stepBudget).outcome⟩) := by
  by_cases hroom : ∀ limit ∈ config.maxSlices, e.slices < limit
  · refine Or.inr ⟨hroom, ?_⟩
    simp only [slice, Config.reachedLimit?_eq_none.mpr hroom]
  · obtain ⟨limit, hmax, hle⟩ : ∃ limit, config.maxSlices = some limit ∧ limit ≤ e.slices := by
      simpa using hroom
    exact Or.inl ⟨limit, hmax, hle, slice_of_limit hmax hle out⟩

/-- A slice neither opens nor closes the sink, as a call does not. -/
theorem isOpen_slice (e : Entry) (config : Config) (out : Sink) :
    (e.slice config out).sink.isOpen = out.isOpen := by
  rcases slice_cases e config out with ⟨limit, _, _, hs⟩ | ⟨_, hs⟩
  · rw [hs]
  · rw [hs]
    exact Process.isOpen_run e.process out config.stepBudget

/-- A slice of a quiet process on an open sink does not crash. The configured budget is positive,
so it is never one that cannot be written. -/
theorem crash?_slice {e : Entry} (hq : e.process.Quiet) (config : Config) {out : Sink}
    (ho : out.isOpen = true) : (e.slice config out).outcome.crash? = none := by
  rcases slice_cases e config out with ⟨limit, _, _, hs⟩ | ⟨_, hs⟩
  · rw [hs]; rfl
  · have hb : (0 : Int) < config.stepBudget := Int.natCast_pos.mpr config.stepBudget_pos
    rw [hs]
    exact Process.crash?_run hq ho hb

/-- What a slice leaves is quiet again, so the next one does not crash either. -/
theorem quiet_slice {e : Entry} (hq : e.process.Quiet) (config : Config) (out : Sink) :
    (e.slice config out).entry.process.Quiet := by
  rcases slice_cases e config out with ⟨limit, _, _, hs⟩ | ⟨_, hs⟩
  · rw [hs]; exact hq
  · rw [hs]; exact Process.quiet_run hq out config.stepBudget

/-- The loop goes on as long as slices come back running. -/
theorem runToEnd_of_running {e : Entry} {config : Config} {out : Sink}
    (h : (e.slice config out).outcome = .running) :
    e.runToEnd config out =
      (e.slice config out).entry.runToEnd config (e.slice config out).sink := by
  rw [runToEnd, if_pos h]

/-- The first slice that does not is the last one. -/
theorem runToEnd_of_ended {e : Entry} {config : Config} {out : Sink}
    (h : (e.slice config out).outcome ≠ .running) :
    e.runToEnd config out = e.slice config out := by
  rw [runToEnd, if_neg h]

/-- A quiet process on an open sink is run to its end without a crash. The recursion is that of
the loop: what is left of the program shrinks with every slice. -/
theorem crash?_runToEnd {e : Entry} (hq : e.process.Quiet) (config : Config) {out : Sink}
    (ho : out.isOpen = true) : (e.runToEnd config out).outcome.crash? = none := by
  by_cases hr : (e.slice config out).outcome = .running
  · rw [runToEnd_of_running hr]
    exact crash?_runToEnd (quiet_slice hq config out) config ((isOpen_slice e config out).trans ho)
  · rw [runToEnd_of_ended hr]
    exact crash?_slice hq config ho
termination_by e.process.remaining
decreasing_by exact remaining_slice hr

/-! ## The loop over the slices

The lifetime `n` of the process is what the two lemmas follow: a slice of `b` steps either reaches
its end or leaves the lifetime `n - b`. -/

/-- A slice that is shorter than the lifetime leaves the process running, with the rest of its
lifetime before it. -/
theorem slice_of_lt {e : Entry} {config : Config} {out : Sink} {n : Nat} {r : Run}
    (hrun : e.process.status = .running)
    (hroom : ∀ limit ∈ config.maxSlices, e.slices < limit)
    (hends : e.process.Ends out n r) (hlt : config.stepBudget < n) :
    (e.slice config out).outcome = .running
      ∧ (e.slice config out).entry.process.status = .running
      ∧ (e.slice config out).entry.slices = e.slices + 1
      ∧ (e.slice config out).entry.process.Ends (e.slice config out).sink
          (n - config.stepBudget) r := by
  rw [slice_of_room hrun hroom]
  obtain ⟨hr, hrest⟩ := hends.drop hlt
  exact ⟨hr, Process.status_runSteps hrun hr, rfl, hrest⟩

/-- **Enough slices.** The process ends as it does in one run, with its lifetime rounded up to
slices. -/
theorem runToEnd_of_room {e : Entry} {config : Config} {out : Sink} {n : Nat} {r : Run}
    (hrun : e.process.status = .running) (hends : e.process.Ends out n r)
    (hroom : ∀ limit ∈ config.maxSlices, e.slices + n ⌈/⌉ config.stepBudget ≤ limit) :
    e.runToEnd config out =
      ⟨{ e with process := r.process, slices := e.slices + n ⌈/⌉ config.stepBudget },
        r.sink, r.outcome⟩ := by
  -- a slice takes `b` off the lifetime, so its length is what the induction is on
  induction n using Nat.strongRecOn generalizing e out with
  | _ n ih =>
    have hb := config.stepBudget_pos
    by_cases hle : n ≤ config.stepBudget
    · -- the lifetime ends in this slice
      have hone := ceilDiv_eq_one hends.pos hle
      rw [hone] at hroom ⊢
      have hslice := slice_of_room hrun hroom out
      rw [hends.runSteps_of_le hle] at hslice
      rw [runToEnd_of_ended (by rw [hslice]; exact hends.outcome_ne), hslice]
    · -- the slice leaves a lifetime of `n - b` and one slice less to have
      have hlt : config.stepBudget < n := Nat.lt_of_not_le hle
      have hsucc := ceilDiv_eq_succ hb hlt
      rw [hsucc] at hroom ⊢
      have hnow : ∀ limit ∈ config.maxSlices, e.slices < limit := by
        intro limit hlimit
        have := hroom limit hlimit
        omega
      obtain ⟨hr, hstatus, hslices, hrest⟩ := slice_of_lt hrun hnow hends hlt
      rw [runToEnd_of_running hr, ih (n - config.stepBudget) (by omega) hstatus hrest ?_, hslices,
        slice_of_room hrun hnow]
      · simp only [Nat.add_comm, Nat.add_left_comm]
      · intro limit hlimit
        have := hroom limit hlimit
        omega

/-- **Too few slices.** The process is refused its next slice where the allowed ones have led it.
The induction is on the slices that are left to it. -/
theorem runToEnd_of_limit {e : Entry} {config : Config} {out : Sink} {n left : Nat} {r : Run}
    (hrun : e.process.status = .running) (hends : e.process.Ends out n r)
    (hmax : config.maxSlices = some (e.slices + left)) (hlt : left < n ⌈/⌉ config.stepBudget) :
    e.runToEnd config out =
      ⟨{ e with
          process := (Process.runSteps (left * config.stepBudget) e.process out).process
          slices := e.slices + left },
        (Process.runSteps (left * config.stepBudget) e.process out).sink,
        .failed (.sliceLimit (e.slices + left))⟩ := by
  induction left generalizing e out n with
  | zero =>
    -- no slice is left: the next one is refused, and nothing has been done
    have hslice := slice_of_limit hmax (Nat.le_refl e.slices) out
    rw [runToEnd_of_ended (by rw [hslice]; nofun), hslice, Nat.zero_mul]
    rfl
  | succ left ih =>
    have hb := config.stepBudget_pos
    have hnow : ∀ limit ∈ config.maxSlices, e.slices < limit := by
      intro limit hlimit
      rw [hmax, Option.mem_some_iff] at hlimit
      omega
    have hlife : config.stepBudget < n := by
      by_contra hle
      rw [ceilDiv_eq_one hends.pos (Nat.le_of_not_lt hle)] at hlt
      omega
    obtain ⟨hr, hstatus, hslices, hrest⟩ := slice_of_lt hrun hnow hends hlife
    rw [ceilDiv_eq_succ hb hlife] at hlt
    have hmax' : config.maxSlices = some ((e.slice config out).entry.slices + left) := by
      rw [hmax, hslices, Nat.add_right_comm, Nat.add_assoc]
    rw [runToEnd_of_running hr, ih hstatus hrest hmax' (by omega), hslices]
    -- the allowed steps are those of this slice and those of the slices after it
    have hsteps : (left + 1) * config.stepBudget = config.stepBudget + left * config.stepBudget := by
      rw [Nat.succ_mul, Nat.add_comm]
    rw [hsteps, Process.runSteps_add, Run.resume_of_running (hends.drop hlife).1,
      slice_of_room hrun hnow, Nat.add_right_comm, Nat.add_assoc]

end Entry

/-! ## The result of a fresh process -/

/-- A process that has had no slice and has executed nothing. -/
def Entry.IsFresh (e : Entry) (prog : Program) : Prop :=
  e.process = prog.start ∧ e.slices = 0

/-- The text of the error in a result. -/
def Result.error (r : Result) : Option String :=
  r.failure.map Failure.message

/-- The category of the error in a result. -/
def Result.errorKind (r : Result) : Option String :=
  r.failure.map Failure.kind

/-- The slices of `b` steps that a run from the start of a program fills. An exit is one of the
completed steps; a failure comes after them and still needs room in a slice. -/
def Run.slicesNeeded (r : Run) (b : Nat) : Nat :=
  match r.outcome with
  | .exited => r.process.steps ⌈/⌉ b
  | _ => r.process.steps / b + 1

/-- Both ways of rounding are the lifetime, rounded up. An exit is counted among the completed
steps and any other end is not, but the lifetime includes the last step either way. -/
theorem Run.slicesNeeded_eq {p : Process} {out : Sink} {n b : Nat} {r : Run}
    (hends : p.Ends out n r) (hp : p.steps = 0) (hb : 0 < b) : r.slicesNeeded b = n ⌈/⌉ b := by
  have hsteps := hends.steps_eq
  rw [hp, Nat.zero_add] at hsteps
  by_cases hx : r.outcome = .exited
  · rw [if_pos hx, Nat.add_zero] at hsteps
    simp only [slicesNeeded, hx, hsteps]
  · rw [if_neg hx] at hsteps
    have hround : (r.process.steps + 1) ⌈/⌉ b = r.process.steps / b + 1 := by
      rw [Nat.ceilDiv_eq_add_pred_div, show r.process.steps + 1 + b - 1 = r.process.steps + b by omega,
        Nat.add_div_right _ hb]
    rw [← hsteps, hround]
    unfold slicesNeeded
    split
    · next hexit => exact absurd hexit hx
    · rfl

/-- The steps of too few slices are all within the lifetime, so each of them is a completed one.
-/
theorem Run.mul_lt_of_lt_slicesNeeded {p : Process} {out : Sink} {n b limit : Nat} {r : Run}
    (hends : p.Ends out n r) (hp : p.steps = 0) (hb : 0 < b) (h : limit < r.slicesNeeded b) :
    limit * b < n := by
  rw [slicesNeeded_eq hends hp hb] at h
  by_contra hle
  have hfill : n ⌈/⌉ b ≤ limit := by
    rw [ceilDiv_le_iff_le_mul hb, Nat.mul_comm]
    exact Nat.le_of_not_lt hle
  omega

namespace Entry

variable {e : Entry} {config : Config} {prog : Program} {out : Sink} {n : Nat} {r : Run}

/-- A fresh process with enough slices ends as it does alone, in one call that is long enough. -/
theorem IsFresh.runToEnd_of_room (hfresh : e.IsFresh prog) (hends : prog.start.Ends out n r)
    (hroom : ∀ limit ∈ config.maxSlices, r.slicesNeeded config.stepBudget ≤ limit) :
    e.runToEnd config out =
      ⟨{ e with process := r.process, slices := r.slicesNeeded config.stepBudget },
        r.sink, r.outcome⟩ := by
  obtain ⟨hproc, hslices⟩ := hfresh
  rw [← hproc] at hends
  have hneed := Run.slicesNeeded_eq hends (by rw [hproc]; rfl) config.stepBudget_pos
  rw [hneed] at hroom ⊢
  have h := Entry.runToEnd_of_room (by rw [hproc]; rfl) hends
    (by rwa [hslices, Nat.zero_add])
  rwa [hslices, Nat.zero_add] at h

/-- A fresh process with too few slices is stopped where the allowed ones have led it, and its
result says that the limit was the reason. -/
theorem IsFresh.runToEnd_of_limit (hfresh : e.IsFresh prog) (hends : prog.start.Ends out n r)
    {limit : Nat} (hmax : config.maxSlices = some limit)
    (hlt : limit < r.slicesNeeded config.stepBudget) :
    e.runToEnd config out =
      ⟨{ e with
          process := (Process.runSteps (limit * config.stepBudget) prog.start out).process
          slices := limit },
        (Process.runSteps (limit * config.stepBudget) prog.start out).sink,
        .failed (.sliceLimit limit)⟩ := by
  obtain ⟨hproc, hslices⟩ := hfresh
  rw [← hproc] at hends
  rw [Run.slicesNeeded_eq hends (by rw [hproc]; rfl) config.stepBudget_pos] at hlt
  have h := Entry.runToEnd_of_limit (by rw [hproc]; rfl) hends
    (by rwa [hslices, Nat.zero_add]) hlt
  rwa [hslices, Nat.zero_add, hproc] at h

end Entry

namespace Machine

/-- The machine reports the end that the loop comes to, and keeps the sink that it leaves. -/
theorem run_of_find? {m : Machine} {pid : Int} {e : Entry} (h : m.find? pid = some e)
    (hcalm : (e.runToEnd m.config (m.sinks.get e.sink)).outcome.crash? = none) :
    (m.run pid).2 = .ok (e.runToEnd m.config (m.sinks.get e.sink)).result
      ∧ (m.run pid).1.sinks.get e.sink = (e.runToEnd m.config (m.sinks.get e.sink)).sink := by
  simp only [run, h, hcalm, setSink, Sinks.get_set_self, and_self]

/-- A crash is reported in place of a result. -/
theorem run_of_crash {m : Machine} {pid : Int} {e : Entry} (h : m.find? pid = some e) {c : Crash}
    (hcrash : (e.runToEnd m.config (m.sinks.get e.sink)).outcome = .crashed c) :
    (m.run pid).2 = .error (.crashed c) := by
  simp only [run, h, hcrash, Outcome.crash?]

/-- **What a machine reports of a fresh process.** Let `lone` be a run of the same program on the
same sink, in one call that is long enough; it ends after `k` steps, on an open sink with an exit or a
failure unless a number in the program signals. If the limit on slices leaves room for the `N` slices
that it fills, the machine reports that end, `k` steps and `N` slices, and the sink is that of the
lone run; an end that is none of the machine's own is raised. If not, the machine reports the limit,
and exactly the steps of the allowed slices have been done and have written their text. -/
theorem run_closed_form {m : Machine} {pid : Int} {e : Entry} {prog : Program}
    (hfind : m.find? pid = some e) (hfresh : e.IsFresh prog) :
    let out := m.sinks.get e.sink
    let b := m.config.stepBudget
    let lone := prog.start.run out (prog.length + 1)
    let k := lone.process.steps
    let N := lone.slicesNeeded b
    (out.isOpen = true → prog.Quiet → lone.outcome = .exited ∨ ∃ f, lone.outcome = .failed f)
      ∧ ((∀ limit ∈ m.config.maxSlices, N ≤ limit) →
          (lone.outcome.crash? = none →
            ∃ r, (m.run pid).2 = .ok r ∧ r.pid = e.pid ∧ r.steps = k ∧ r.slices = N
              ∧ (r.success = true ↔ lone.outcome = .exited)
              ∧ (lone.outcome = .exited → r.error = none ∧ r.errorKind = none)
              ∧ (∀ f, lone.outcome = .failed f →
                  r.error = some f.message ∧ r.errorKind = some f.kind)
              ∧ (m.run pid).1.sinks.get e.sink = lone.sink)
          ∧ ∀ c, lone.outcome = .crashed c → (m.run pid).2 = .error (.crashed c))
      ∧ (∀ limit ∈ m.config.maxSlices, limit < N →
          ∃ r, (m.run pid).2 = .ok r ∧ r.pid = e.pid ∧ r.steps = limit * b ∧ r.slices = limit
            ∧ r.success = false
            ∧ r.error = some s!"process exceeded {limit} slices without exiting"
            ∧ r.errorKind = some "ProtocolError"
            ∧ (m.run pid).1.sinks.get e.sink = (prog.start.run out (limit * b)).sink) := by
  intro out b lone k N
  have hb : 0 < b := m.config.stepBudget_pos
  obtain ⟨n, r, hn, hends⟩ := Process.exists_ends prog.start out
  have hlone : lone = r := hends.run_start hn
  simp only [k, N, hlone]
  refine ⟨fun ho hq => hends.exited_or_failed ho (Process.quiet_start hq), ?_, ?_⟩
  · intro hroom
    have hrun : e.runToEnd m.config (m.sinks.get e.sink) = _ := hfresh.runToEnd_of_room hends hroom
    refine ⟨?_, fun c hc => run_of_crash hfind (by rw [hrun]; exact hc)⟩
    intro hcalm
    obtain ⟨hres, hsink⟩ := run_of_find? hfind (by rw [hrun]; exact hcalm)
    refine ⟨_, hres, ?_⟩
    rw [hsink, hrun]
    cases houtcome : r.outcome with
    | running => exact absurd houtcome hends.outcome_ne
    | crashed c => rw [houtcome] at hcalm; cases hcalm
    | exited =>
      simp [Slice.result, Outcome.failure?, Result.success, Result.error, Result.errorKind, b]
    | failed f =>
      simp [Slice.result, Outcome.failure?, Result.success, Result.error, Result.errorKind, b]
  · intro limit hlimit hlt
    have hrun : e.runToEnd m.config (m.sinks.get e.sink) = _ :=
      hfresh.runToEnd_of_limit hends hlimit hlt
    obtain ⟨hres, hsink⟩ := run_of_find? hfind (by rw [hrun]; rfl)
    -- the allowed slices end before the lifetime does, so all their steps are completed
    have hlife : limit * b < n := Run.mul_lt_of_lt_slicesNeeded hends rfl hb hlt
    have hsteps : (Process.runSteps (limit * b) prog.start out).process.steps = limit * b := by
      rw [hends.steps_of_lt hlife]
      exact Nat.zero_add _
    have hpos : 0 < limit * b := Nat.mul_pos (m.config.maxSlices_pos limit hlimit) hb
    have hcut : prog.start.run out (limit * b) = Process.runSteps (limit * b) prog.start out := by
      rw [← Int.natCast_mul, Process.run_natCast rfl out hpos]
    refine ⟨_, hres, ?_⟩
    rw [hsink, hcut, hrun]
    exact ⟨rfl, hsteps, rfl, rfl, rfl, rfl, rfl⟩

/-- A program without an exit, in slices that its two instructions fill exactly: it takes a second
slice to fail, and with one slice allowed it is stopped before it fails. -/
theorem run_closed_form_boundary :
    let prog : Program := [.push (.ofInt .int8 65 (by decide)), .print]
    let m := (start (.withBudget 2 (by decide))).load prog .shared
    let capped := (start ⟨2, some 1, by decide, by decide⟩).load prog .shared
    let e : Entry := ⟨1, prog.start, 0, .shared⟩
    m.find? 1 = some e ∧ capped.find? 1 = some e ∧ e.IsFresh prog
      ∧ (∃ r, (m.run 1).2 = .ok r ∧ r.steps = 2 ∧ r.slices = 2
          ∧ r.errorKind = some "ProtocolError" ∧ ((m.run 1).1.sinks.get .shared).text = "A")
      ∧ (∃ r, (capped.run 1).2 = .ok r ∧ r.steps = 2 ∧ r.slices = 1
          ∧ r.error = some "process exceeded 1 slices without exiting"
          ∧ ((capped.run 1).1.sinks.get .shared).text = "A") := by
  intro prog m capped e
  have hm : m.find? 1 = some e := rfl
  have hcapped : capped.find? 1 = some e := rfl
  have hfresh : e.IsFresh prog := ⟨rfl, rfl⟩
  obtain ⟨-, hroom, -⟩ := run_closed_form hm hfresh
  obtain ⟨-, -, hlimit⟩ := run_closed_form hcapped hfresh
  obtain ⟨r, hr, -, hsteps, hslices, -, -, herror, hsink⟩ := (hroom nofun).1 (by decide)
  obtain ⟨r', hr', -, hsteps', hslices', -, herror', -, hsink'⟩ := hlimit 1 rfl (by decide)
  refine ⟨hm, hcapped, hfresh, ⟨r, hr, hsteps, hslices.trans (by decide), ?_, ?_⟩,
    ⟨r', hr', hsteps', hslices', herror', ?_⟩⟩
  · exact (herror (.endOfProgram 2) (by decide)).2
  · rw [show (m.run 1).1.sinks.get .shared = _ from hsink]
    decide
  · rw [show (capped.run 1).1.sinks.get .shared = _ from hsink']
    decide

end Machine

end StackMachine
