import Mathlib
import StackMachine.Proofs.Histories
import StackMachine.Proofs.Scheduling

/-!
# Round-robin refines isolated execution

Processes that take turns do not notice each other. The simulation goes round by round: what a round
does to the table is what each entry's next slice does alone, and what it writes to a sink is what
these slices write, in the order of the table. After the round the same holds of the processes that
are left, one slice further.

* **`Entry.Calm`**: alone, the process comes to its end without a crash. A crash takes a process out
  of the machine without a result, and breaks off the round of the others.
* **`runRound_eq`**: one round, entry by entry.
* **`runRounds_completed`**: all rounds. One result for each entry, the one it has alone; ordered by
  the round in which it ended; and the text of every sink.
* **`Machine.runAll_refines_run`**: the headline.
-/

namespace StackMachine

/-! ## Slices on open sinks

A slice on an open sink does what it does on the empty one and adds its text to what is there
already. -/

/-- What was done on the empty sink, done on `out`. -/
def Slice.onto (s : Slice) (out : Sink) : Slice :=
  { s with sink := out.append s.sink.text }

theorem Slice.onto_onto (s : Slice) (mid out : Sink) :
    (s.onto mid).onto out = s.onto (out.append mid.text) := by
  simp [onto]

namespace Entry

/-- A slice on an open sink is a slice on the empty one, with its text put at the end. If it is
refused there is no text. -/
theorem slice_onto (e : Entry) (config : Config) {out : Sink} (ho : out.isOpen = true) :
    e.slice config out = (e.slice config .empty).onto out := by
  rcases slice_cases e config .empty with ⟨limit, hmax, hle, hs⟩ | ⟨hroom, hs⟩
  · rw [slice_of_limit hmax hle out, hs]
    simp [Slice.onto]
  · have hrun := Process.run_onto e.process ho config.stepBudget
    rw [hs]
    simp only [slice, Config.reachedLimit?_eq_none.mpr hroom, hrun]
    rfl

/-- The same of all slices up to the end. The recursion is that of the loop; on both sides the
slices that follow start from an open sink. -/
theorem runToEnd_onto (e : Entry) (config : Config) {out : Sink} (ho : out.isOpen = true) :
    e.runToEnd config out = (e.runToEnd config .empty).onto out := by
  have hslice := slice_onto e config ho
  by_cases hr : (e.slice config .empty).outcome = .running
  · have hmid : (e.slice config .empty).sink.isOpen = true := isOpen_slice e config .empty
    have hr' : (e.slice config out).outcome = .running := by rw [hslice]; exact hr
    have hout : (e.slice config out).sink.isOpen = true := (isOpen_slice e config out).trans ho
    -- the slices that follow start from an open sink on both sides, and add to what this one wrote
    rw [runToEnd_of_running hr', runToEnd_of_running hr, runToEnd_onto _ config hout,
      runToEnd_onto _ config hmid, Slice.onto_onto, hslice]
    rfl
  · have hr' : (e.slice config out).outcome ≠ .running := by rw [hslice]; exact hr
    rw [runToEnd_of_ended hr', runToEnd_of_ended hr, hslice]
termination_by e.process.remaining
decreasing_by
  · exact remaining_slice hr'
  · exact remaining_slice hr

end Entry

/-! ## What the slices of an entry do alone -/

namespace Entry

/-- The entry after its next slice, if the process is still running then. -/
def survivor? (config : Config) (e : Entry) : Option Entry :=
  if (e.slice config .empty).outcome = .running then some (e.slice config .empty).entry else none

/-- The result of the process, if its next slice is the last one. -/
def lastResult? (config : Config) (e : Entry) : Option Result :=
  if (e.slice config .empty).outcome = .running then none else some (e.slice config .empty).result

/-- What the process writes in its slice number `n + 1` from now on when it is run alone: nothing
once it has ended. -/
def sliceText (config : Config) : Nat → Entry → String
  | 0, e => (e.slice config .empty).sink.text
  | n + 1, e =>
    if (e.slice config .empty).outcome = .running
    then sliceText config n (e.slice config .empty).entry else ""

/-- The result of the process when it is run alone. -/
def loneResult (config : Config) (e : Entry) : Result :=
  (e.runToEnd config .empty).result

theorem sink_slice (e : Entry) (config : Config) (out : Sink) :
    (e.slice config out).entry.sink = e.sink := by
  rcases slice_cases e config out with ⟨limit, _, _, hs⟩ | ⟨_, hs⟩ <;> rw [hs]

/-- A slice after which the process is running leaves its result to the slices after it. So a
result is the same whether the first slices were taken alone or between those of others. -/
theorem loneResult_of_running {e : Entry} {config : Config}
    (h : (e.slice config .empty).outcome = .running) :
    loneResult config (e.slice config .empty).entry = loneResult config e := by
  rw [loneResult, loneResult, runToEnd_of_running h,
    runToEnd_onto _ config ((isOpen_slice e config .empty).trans rfl)]
  rfl

/-- A slice that ends the process decides its result. -/
theorem loneResult_of_ended {e : Entry} {config : Config}
    (h : (e.slice config .empty).outcome ≠ .running) :
    loneResult config e = (e.slice config .empty).result := by
  rw [loneResult, runToEnd_of_ended h]

/-! ## Processes that come to an end of the machine's own -/

/-- Alone, the process comes to its end without a crash. -/
def Calm (config : Config) (e : Entry) : Prop :=
  (e.runToEnd config .empty).outcome.crash? = none

/-- A quiet process comes to its end without a crash, and so it has a result to be reported. -/
theorem calm_of_quiet (config : Config) {e : Entry} (hq : e.process.Quiet) : e.Calm config :=
  crash?_runToEnd hq config Sink.isOpen_empty

/-- No slice on the way to the end is a crash; it would have been the end. -/
theorem Calm.crash?_slice {config : Config} {e : Entry} (h : e.Calm config) :
    (e.slice config .empty).outcome.crash? = none := by
  by_cases hr : (e.slice config .empty).outcome = .running
  · rw [hr]
    rfl
  · rw [Calm, runToEnd_of_ended hr] at h
    exact h

/-- What is left of the process after a slice is on the way to the same end. Only the text in its
sink is another one, and that makes no difference. -/
theorem Calm.of_running {config : Config} {e : Entry} (h : e.Calm config)
    (hr : (e.slice config .empty).outcome = .running) :
    (e.slice config .empty).entry.Calm config := by
  rw [Calm, runToEnd_of_running hr,
    runToEnd_onto _ config ((isOpen_slice e config .empty).trans rfl)] at h
  exact h

/-- The same of the entry that a round keeps. -/
theorem Calm.of_survivor? {config : Config} {e e' : Entry} (h : e.Calm config)
    (hs : e.survivor? config = some e') : e'.Calm config := by
  rw [survivor?] at hs
  split at hs
  · next hr =>
    cases hs
    exact h.of_running hr
  · cases hs

end Entry

/-- What the entries that write to the sink `name` write in their slices number `n + 1`, in the
order of the table. -/
def roundText (config : Config) (name : SinkName) (n : Nat) (table : List Entry) : String :=
  String.join ((table.filter (·.sink = name)).map (Entry.sliceText config n))

/-- What they write in the given number of rounds, one round after the other. -/
def roundsText (config : Config) (name : SinkName) (rounds : Nat) (table : List Entry) : String :=
  String.join ((List.range rounds).map fun n => roundText config name n table)

/-! ## One round -/

theorem roundText_singleton (config : Config) (name : SinkName) (n : Nat) (e : Entry) :
    roundText config name n [e] = if e.sink = name then e.sliceText config n else "" := by
  by_cases h : e.sink = name
  · simp [roundText, h]
  · simp [roundText, h]

/-- The texts of a round come in the order of the table. -/
theorem roundText_cons (config : Config) (name : SinkName) (n : Nat) (e : Entry) (es : List Entry) :
    roundText config name n (e :: es)
      = roundText config name n [e] ++ roundText config name n es := by
  by_cases h : e.sink = name
  · simp [roundText, h]
  · simp [roundText, h]

/-- The sinks after a slice on an open sink: its own has the text of the slice, the others are as
they were. -/
theorem Sinks.get_set_slice (config : Config) {e : Entry} {sinks : Sinks}
    (ho : (sinks.get e.sink).isOpen = true) (name : SinkName) :
    (sinks.set e.sink (e.slice config (sinks.get e.sink)).sink).get name
      = (sinks.get name).append (roundText config name 0 [e]) := by
  by_cases h : e.sink = name
  · subst h
    rw [get_set_self, Entry.slice_onto e config ho, roundText_singleton, if_pos rfl]
    rfl
  · rw [get_set_of_ne sinks (Ne.symm h), roundText_singleton, if_neg h, Sink.append_empty]

/-- A process that goes on is kept, and the others have their turns with the sinks that it leaves.
-/
theorem runRound_cons_of_running {config : Config} {e : Entry} {es : List Entry} {sinks : Sinks}
    (h : (e.slice config (sinks.get e.sink)).outcome = .running) :
    runRound config (e :: es) sinks =
      (runRound config es (sinks.set e.sink (e.slice config (sinks.get e.sink)).sink)).keep
        (e.slice config (sinks.get e.sink)).entry := by
  simp only [runRound, h]

/-- A process that has ended without a crash is taken out, and its result comes before those of
the processes behind it. -/
theorem runRound_cons_of_ended {config : Config} {e : Entry} {es : List Entry} {sinks : Sinks}
    (h : (e.slice config (sinks.get e.sink)).outcome ≠ .running)
    (hcalm : (e.slice config (sinks.get e.sink)).outcome.crash? = none) :
    runRound config (e :: es) sinks =
      (runRound config es (sinks.set e.sink (e.slice config (sinks.get e.sink)).sink)).finish
        (e.slice config (sinks.get e.sink)).result := by
  rw [runRound]
  split
  · next hr => exact absurd hr h
  · next hc => rw [hc] at hcalm; cases hcalm
  · rfl

/-- **One round, entry by entry.** All sinks of the table being open and nobody about to crash, the
round keeps the survivors, reports the others, and adds to each sink what the slices write alone. -/
theorem runRound_eq (config : Config) (table : List Entry) (sinks : Sinks)
    (ho : ∀ e ∈ table, (sinks.get e.sink).isOpen = true) (hcalm : ∀ e ∈ table, e.Calm config) :
    (runRound config table sinks).table = table.filterMap (Entry.survivor? config)
      ∧ (runRound config table sinks).finished = table.filterMap (Entry.lastResult? config)
      ∧ (runRound config table sinks).crash = none
      ∧ ∀ name, (runRound config table sinks).sinks.get name
          = (sinks.get name).append (roundText config name 0 table) := by
  induction table generalizing sinks with
  | nil =>
    refine ⟨rfl, rfl, rfl, fun name => ?_⟩
    rw [show roundText config name 0 [] = "" from rfl, Sink.append_empty]
    rfl
  | cons e es ih =>
    have hopen : (sinks.get e.sink).isOpen = true := ho e List.mem_cons_self
    have hget := Sinks.get_set_slice config hopen
    -- a slice adds text to a sink and closes none, so the others still find theirs open
    have ho' : ∀ e' ∈ es, ((sinks.set e.sink (e.slice config (sinks.get e.sink)).sink).get
        e'.sink).isOpen = true := by
      intro e' he'
      rw [hget]
      exact ho e' (List.mem_cons_of_mem e he')
    obtain ⟨htable, hfinished, hcrash, hsinks⟩ :=
      ih _ ho' fun e' he' => hcalm e' (List.mem_cons_of_mem e he')
    have htext : ∀ name, (runRound config es
        (sinks.set e.sink (e.slice config (sinks.get e.sink)).sink)).sinks.get name
          = (sinks.get name).append (roundText config name 0 (e :: es)) := by
      intro name
      rw [hsinks, hget, Sink.append_append, ← roundText_cons]
    -- what the slice does to the entry does not depend on the text of the sink
    have hslice := Entry.slice_onto e config hopen
    have houtcome : (e.slice config (sinks.get e.sink)).outcome = (e.slice config .empty).outcome := by
      rw [hslice]; rfl
    by_cases hr : (e.slice config .empty).outcome = .running
    · rw [runRound_cons_of_running (houtcome.trans hr), List.filterMap_cons, List.filterMap_cons,
        Entry.survivor?, Entry.lastResult?, if_pos hr, if_pos hr]
      refine ⟨?_, hfinished, hcrash, htext⟩
      rw [Round.keep, htable, hslice]
      rfl
    · have hslice? : (e.slice config (sinks.get e.sink)).outcome.crash? = none :=
        houtcome ▸ (hcalm e List.mem_cons_self).crash?_slice
      rw [runRound_cons_of_ended (houtcome ▸ hr) hslice?, List.filterMap_cons, List.filterMap_cons,
        Entry.survivor?, Entry.lastResult?, if_neg hr, if_neg hr]
      refine ⟨htable, ?_, hcrash, htext⟩
      rw [Round.finish, hfinished, hslice]
      rfl

/-! ## From one round to the next

A round divides the table into those that end in it and those that go on. What is known of the latter
after the round tells all about the table before it. -/

/-- Each entry has its lone result, now or later. The induction is on the table; those that end
now come first, so the two sides are equal up to their order. -/
theorem lastResults_append_perm (config : Config) (table : List Entry) :
    (table.filterMap (Entry.lastResult? config)
        ++ (table.filterMap (Entry.survivor? config)).map (Entry.loneResult config)).Perm
      (table.map (Entry.loneResult config)) := by
  induction table with
  | nil => exact .refl _
  | cons e es ih =>
    by_cases hr : (e.slice config .empty).outcome = .running
    · rw [List.filterMap_cons, List.filterMap_cons, Entry.survivor?, Entry.lastResult?, if_pos hr,
        if_pos hr, List.map_cons, List.map_cons, Entry.loneResult_of_running hr]
      exact List.perm_middle.trans (ih.cons _)
    · rw [List.filterMap_cons, List.filterMap_cons, Entry.survivor?, Entry.lastResult?, if_neg hr,
        if_neg hr, List.map_cons, Entry.loneResult_of_ended hr]
      exact ih.cons _

/-- What is written in a later round is written by those that go on. The others are asked too, and
have nothing to say. -/
theorem roundText_succ (config : Config) (name : SinkName) (n : Nat) (table : List Entry) :
    roundText config name (n + 1) table
      = roundText config name n (table.filterMap (Entry.survivor? config)) := by
  induction table with
  | nil => rfl
  | cons e es ih =>
    rw [roundText_cons, ih, roundText_singleton, Entry.sliceText, List.filterMap_cons,
      Entry.survivor?]
    by_cases hr : (e.slice config .empty).outcome = .running
    · rw [if_pos hr, if_pos hr]
      simp only
      rw [roundText_cons config name n (e.slice config .empty).entry, roundText_singleton,
        Entry.sink_slice]
    · rw [if_neg hr, if_neg hr, ite_self, String.empty_append]

/-- The texts of several rounds are the text of the first one and those that the survivors write
from then on. -/
theorem roundsText_succ (config : Config) (name : SinkName) (rounds : Nat) (table : List Entry) :
    roundsText config name (rounds + 1) table
      = roundText config name 0 table
        ++ roundsText config name rounds (table.filterMap (Entry.survivor? config)) := by
  rw [roundsText, List.range_succ_eq_map, List.map_cons, String.join_cons, List.map_map, roundsText]
  congr 3
  funext n
  exact roundText_succ config name n table

/-- No processes, no text. -/
theorem roundsText_nil (config : Config) (name : SinkName) (rounds : Nat) :
    roundsText config name rounds [] = "" := by
  induction rounds with
  | zero => rfl
  | succ rounds ih =>
    rw [roundsText_succ]
    simpa [roundText] using ih

/-! ## The order of the results -/

/-- The round in which the process has ended: that of its last slice, or the one after the last
allowed one, in which it was refused. -/
def Result.round (r : Result) : Nat :=
  match r.failure with
  | some (.sliceLimit limit) => limit + 1
  | _ => r.slices

/-- Ordered by the round, and within a round by the id. -/
def Result.Before (r s : Result) : Prop :=
  r.round < s.round ∨ (r.round = s.round ∧ r.pid < s.pid)

/-- A process that was not refused its slice has ended in the round of that slice. The refused
ones are counted in the round in which they were refused. -/
theorem Slice.round_of_own {s : Slice} (h : s.outcome.Own) : s.result.round = s.entry.slices := by
  obtain ⟨entry, sink, outcome⟩ := s
  cases outcome with
  | running => rfl
  | exited => rfl
  | crashed c => rfl
  | failed f =>
    cases f with
    | sliceLimit limit => exact h.elim
    | fault ip i cause => rfl
    | endOfProgram ip => rfl
    | notResumable => rfl
    | budgetNotPositive budget => rfl

namespace Entry

/-- A result is that of the process with its id. -/
theorem pid_of_lastResult? {config : Config} {e : Entry} {r : Result}
    (h : e.lastResult? config = some r) : r.pid = e.pid := by
  rw [lastResult?] at h
  split at h
  · cases h
  · cases h
    exact pid_slice e config .empty

/-- A process that is allowed the slices it has had ends in the round after them, whether it is
given that slice or refused it. -/
theorem round_of_lastResult? {config : Config} {e : Entry} {r : Result}
    (hle : ∀ limit ∈ config.maxSlices, e.slices ≤ limit) (h : e.lastResult? config = some r) :
    r.round = e.slices + 1 := by
  rw [lastResult?] at h
  split at h
  · cases h
  · cases h
    rcases slice_cases e config .empty with ⟨limit, hmax, hlimit, hs⟩ | ⟨hroom, hs⟩
    · have := hle limit hmax
      rw [hs]
      show limit + 1 = e.slices + 1
      omega
    · rw [hs]
      exact Slice.round_of_own (Process.own_run e.process Sink.isOpen_empty config.stepBudget)

/-- An entry that goes on has had one slice more, and was allowed it. Its id and its sink are the
same. -/
theorem of_survivor? {config : Config} {e e' : Entry} (h : e.survivor? config = some e') :
    e'.pid = e.pid ∧ e'.sink = e.sink ∧ e'.slices = e.slices + 1
      ∧ ∀ limit ∈ config.maxSlices, e'.slices ≤ limit := by
  rw [survivor?] at h
  split at h
  · next hr =>
    cases h
    refine ⟨pid_slice e config .empty, sink_slice e config .empty, ?_⟩
    rcases slice_cases e config .empty with ⟨limit, _, _, hs⟩ | ⟨hroom, hs⟩
    · rw [hs] at hr
      cases hr
    · rw [hs]
      exact ⟨rfl, hroom⟩
  · cases h

end Entry

/-! ## All rounds -/

/-- A table in the middle of its turns: all entries have had the same number of slices, and no more
than allowed; their ids ascend; their sinks are open; nobody is to crash. -/
structure InTurn (config : Config) (done : Nat) (table : List Entry) (sinks : Sinks) : Prop where
  slices : ∀ e ∈ table, e.slices = done
  allowed : ∀ e ∈ table, ∀ limit ∈ config.maxSlices, e.slices ≤ limit
  ascending : (table.map (·.pid)).Pairwise (· < ·)
  isOpen : ∀ e ∈ table, (sinks.get e.sink).isOpen = true
  calm : ∀ e ∈ table, e.Calm config

/-- What the turns of a table come to, `done` rounds being over: everyone's lone result, each later
than the rounds that are over, in order, and the text of all rounds. -/
structure Completed (config : Config) (done : Nat) (table : List Entry) (sinks : Sinks) (r : Round) :
    Prop where
  empty : r.table = []
  unbroken : r.crash = none
  perm : r.finished.Perm (table.map (Entry.loneResult config))
  later : ∀ x ∈ r.finished, done < x.round
  ordered : r.finished.Pairwise Result.Before
  text : ∀ name rounds, (∀ x ∈ r.finished, x.round ≤ done + rounds) →
    r.sinks.get name = (sinks.get name).append (roundsText config name rounds table)

namespace InTurn

variable {config : Config} {done : Nat} {table : List Entry} {sinks : Sinks}

/-- All that end in a round end in the same round, whether they have ended by themselves or were
refused. -/
theorem round_finished (h : InTurn config done table sinks) {x : Result}
    (hx : x ∈ table.filterMap (Entry.lastResult? config)) : x.round = done + 1 := by
  obtain ⟨e, he, hlast⟩ := List.mem_filterMap.mp hx
  rw [Entry.round_of_lastResult? (h.allowed e he) hlast, h.slices e he]

/-- The results of one round are in the order of the ids, because the table is. -/
theorem ordered_finished (h : InTurn config done table sinks) :
    (table.filterMap (Entry.lastResult? config)).Pairwise Result.Before := by
  rw [List.pairwise_filterMap]
  refine (List.pairwise_map.mp h.ascending).imp_of_mem ?_
  intro e e' he he' hlt r hr r' hr'
  refine Or.inr ⟨?_, ?_⟩
  · rw [h.round_finished (List.mem_filterMap.mpr ⟨e, he, hr⟩),
      h.round_finished (List.mem_filterMap.mpr ⟨e', he', hr'⟩)]
  · rw [Entry.pid_of_lastResult? hr, Entry.pid_of_lastResult? hr']
    exact hlt

/-- A round leaves a table in the middle of its turns, one round further. This is the step of the
simulation. -/
theorem next (h : InTurn config done table sinks) :
    InTurn config (done + 1) (runRound config table sinks).table
      (runRound config table sinks).sinks := by
  obtain ⟨htable, -, -, hsinks⟩ := runRound_eq config table sinks h.isOpen h.calm
  have hpids := pids_runRound_sublist config table sinks
  rw [htable] at hpids ⊢
  -- each part is about the processes that stay, and each of them comes from one that was there
  refine ⟨?_, ?_, h.ascending.sublist hpids, ?_, ?_⟩
  · intro e' he'
    obtain ⟨e, he, hsurv⟩ := List.mem_filterMap.mp he'
    rw [(Entry.of_survivor? hsurv).2.2.1, h.slices e he]
  · intro e' he'
    obtain ⟨e, he, hsurv⟩ := List.mem_filterMap.mp he'
    exact (Entry.of_survivor? hsurv).2.2.2
  · intro e' he'
    obtain ⟨e, he, hsurv⟩ := List.mem_filterMap.mp he'
    rw [hsinks, (Entry.of_survivor? hsurv).2.1]
    exact h.isOpen e he
  · intro e' he'
    obtain ⟨e, he, hsurv⟩ := List.mem_filterMap.mp he'
    exact (h.calm e he).of_survivor? hsurv

end InTurn

/-- The turns that are left after a round, put behind that round. Results, order and texts are put
together from those of the round and those of the rest. -/
theorem Completed.cons {config : Config} {done : Nat} {e : Entry} {es : List Entry} {sinks : Sinks}
    {rest : Round} (h : InTurn config done (e :: es) sinks)
    (hrest : Completed config (done + 1) (runRound config (e :: es) sinks).table
      (runRound config (e :: es) sinks).sinks rest) :
    Completed config done (e :: es) sinks
      { rest with finished := (runRound config (e :: es) sinks).finished ++ rest.finished } := by
  obtain ⟨htable, hfinished, -, hsinks⟩ := runRound_eq config (e :: es) sinks h.isOpen h.calm
  have hperm : ((runRound config (e :: es) sinks).finished ++ rest.finished).Perm
      ((e :: es).map (Entry.loneResult config)) := by
    have hdivided := lastResults_append_perm config (e :: es)
    rw [← hfinished, ← htable] at hdivided
    exact (hrest.perm.append_left _).trans hdivided
  have hround : ∀ x ∈ (runRound config (e :: es) sinks).finished, x.round = done + 1 := by
    intro x hx
    rw [hfinished] at hx
    exact h.round_finished hx
  have hlater : ∀ x ∈ (runRound config (e :: es) sinks).finished ++ rest.finished,
      done < x.round := by
    intro x hx
    rcases List.mem_append.mp hx with hnow | hafter
    · have := hround x hnow
      omega
    · have := hrest.later x hafter
      omega
  refine ⟨hrest.empty, hrest.unbroken, hperm, hlater, ?_, ?_⟩
  · rw [List.pairwise_append]
    refine ⟨hfinished ▸ h.ordered_finished, hrest.ordered, ?_⟩
    intro x hx y hy
    have hxr := hround x hx
    have hyr := hrest.later y hy
    exact Or.inl (by omega)
  · intro name rounds hrounds
    cases rounds with
    | zero =>
      -- some process has ended, and no round is left in which it could have
      exfalso
      obtain ⟨x, hx⟩ : ∃ x, x ∈ (runRound config (e :: es) sinks).finished ++ rest.finished :=
        ⟨_, hperm.mem_iff.mpr List.mem_cons_self⟩
      have h₁ := hrounds x hx
      have h₂ := hlater x hx
      omega
    | succ rounds =>
      have htext := hrest.text name rounds fun x hx => by
        have := hrounds x (List.mem_append_right _ hx)
        omega
      rw [htext, hsinks, Sink.append_append, htable, ← roundsText_succ]

/-- **All rounds.** The induction is the recursion of the loop, which ends because the programs
that are left get shorter with every round. -/
theorem runRounds_completed (config : Config) (table : List Entry) (sinks : Sinks) :
    ∀ done, InTurn config done table sinks →
      Completed config done table sinks (runRounds config table sinks) := by
  fun_induction runRounds config table sinks with
  | case1 sinks =>
    intro done _
    refine ⟨rfl, rfl, .refl _, by simp, .nil, ?_⟩
    intro name rounds _
    rw [roundsText_nil, Sink.append_empty]
  | case2 e es sinks r hcrash =>
    -- nobody is to crash, so no round is broken off
    intro done h
    have hcalm := (runRound_eq config (e :: es) sinks h.isOpen h.calm).2.2.1
    rw [show r.crash = none from hcalm] at hcrash
    cases hcrash
  | case3 e es sinks r _ rest ih =>
    -- the round passes the invariant on, and what the rounds after it come to is put behind it
    intro done h
    exact (ih (done + 1) h.next).cons h

/-! ## A process alone -/

namespace Entry

variable {config : Config} {e : Entry}

/-- The result of a process comes in a later round than those it has had: a table with nothing else
in it takes its turns like any other. -/
theorem slices_lt_round (hcalm : e.Calm config)
    (hle : ∀ limit ∈ config.maxSlices, e.slices ≤ limit) :
    e.slices < (e.loneResult config).round := by
  have hturn : InTurn config e.slices [e] {} :=
    ⟨by simp, by simpa using hle, List.pairwise_singleton _ _, by simp [Sinks.get],
      by simpa using hcalm⟩
  have hdone := runRounds_completed config [e] {} e.slices hturn
  exact hdone.later _ (hdone.perm.mem_iff.mpr List.mem_cons_self)

/-- The text of a lone execution is that of its slices. The induction is on the rounds: the first
slice is written in the first of them, and the others write what is left. -/
theorem text_runToEnd (hcalm : e.Calm config)
    (hle : ∀ limit ∈ config.maxSlices, e.slices ≤ limit) {rounds : Nat}
    (h : (e.loneResult config).round ≤ e.slices + rounds) :
    (e.runToEnd config .empty).sink.text = roundsText config e.sink rounds [e] := by
  induction rounds generalizing e with
  | zero =>
    -- the process has not ended yet, so there is a round to come
    have := slices_lt_round hcalm hle
    omega
  | succ rounds ih =>
    rw [roundsText_succ, roundText_singleton, if_pos rfl, List.filterMap_cons, List.filterMap_nil]
    by_cases hr : (e.slice config .empty).outcome = .running
    · have hsurv : e.survivor? config = some (e.slice config .empty).entry := if_pos hr
      obtain ⟨-, hsink, hslices, hle'⟩ := of_survivor? hsurv
      rw [hsurv, runToEnd_of_running hr, runToEnd_onto _ config (isOpen_slice e config .empty)]
      show (e.slice config .empty).sink.text ++ _ = _
      rw [ih (hcalm.of_running hr) hle' (by rw [loneResult_of_running hr, hslices]; omega), hsink]
      rfl
    · rw [survivor?, if_neg hr, runToEnd_of_ended hr, roundsText_nil, String.append_empty]
      rfl

/-- Fresh processes with the same program come to the same end and write the same text, whatever
their ids and sinks are called. -/
theorem IsFresh.runToEnd_eq {e' : Entry} {prog : Program} (h : e.IsFresh prog)
    (h' : e'.IsFresh prog) (config : Config) (out : Sink) :
    e'.runToEnd config out =
      ⟨{ (e.runToEnd config out).entry with pid := e'.pid, sink := e'.sink },
        (e.runToEnd config out).sink, (e.runToEnd config out).outcome⟩ := by
  obtain ⟨n, r, -, hends⟩ := Process.exists_ends prog.start out
  by_cases hroom : ∀ limit ∈ config.maxSlices, r.slicesNeeded config.stepBudget ≤ limit
  · rw [h.runToEnd_of_room hends hroom, h'.runToEnd_of_room hends hroom]
  · obtain ⟨limit, hmax, hlt⟩ :
        ∃ limit, config.maxSlices = some limit ∧ limit < r.slicesNeeded config.stepBudget := by
      simpa using hroom
    rw [h.runToEnd_of_limit hends hmax hlt, h'.runToEnd_of_limit hends hmax hlt]

/-- Two fresh processes of one program have the same result, apart from their ids. -/
theorem IsFresh.loneResult_eq {e' : Entry} {prog : Program} (h : e.IsFresh prog)
    (h' : e'.IsFresh prog) (config : Config) :
    e'.loneResult config = { e.loneResult config with pid := e'.pid } := by
  rw [loneResult, h.runToEnd_eq h' config .empty]
  rfl

/-- Whether a fresh process crashes is decided by its program, not by its id or its sink. -/
theorem IsFresh.calm_iff {e' : Entry} {prog : Program} (h : e.IsFresh prog) (h' : e'.IsFresh prog)
    (config : Config) : e'.Calm config ↔ e.Calm config := by
  rw [Calm, h.runToEnd_eq h' config .empty]
  rfl

/-- The lone result of a process has the id of the process. -/
theorem IsFresh.pid_loneResult {prog : Program} (h : e.IsFresh prog) (config : Config) :
    (e.loneResult config).pid = e.pid :=
  congrArg Result.pid (h.loneResult_eq h config)

end Entry

namespace Machine

/-- A machine with nothing but one program in it reports the lone result, and its sink has the
lone text. -/
theorem run_alone {config : Config} {prog : Program} {name : SinkName}
    (hcalm : Entry.Calm config ⟨1, prog.start, 0, name⟩) :
    (((start config).load prog name).run 1).2
        = .ok (Entry.loneResult config ⟨1, prog.start, 0, name⟩)
      ∧ (((start config).load prog name).run 1).1.sinks.get name
        = (Entry.runToEnd ⟨1, prog.start, 0, name⟩ config .empty).sink :=
  run_of_find? (e := ⟨1, prog.start, 0, name⟩) (m := (start config).load prog name) rfl hcalm

/-- A machine with nothing but one program in it has something to report, if and only if the program
comes to its end without a crash. -/
theorem run_alone_returns_iff (config : Config) (prog : Program) (name : SinkName) :
    (∃ r, (((start config).load prog name).run 1).2 = .ok r)
      ↔ Entry.Calm config ⟨1, prog.start, 0, name⟩ := by
  refine ⟨?_, fun hcalm => ⟨_, (run_alone hcalm).1⟩⟩
  rintro ⟨r, hr⟩
  cases houtcome : (Entry.runToEnd ⟨1, prog.start, 0, name⟩ config .empty).outcome with
  | crashed c =>
    rw [run_of_crash (m := (start config).load prog name) (e := ⟨1, prog.start, 0, name⟩) rfl
      houtcome] at hr
    cases hr
  | running | exited | failed => rw [Entry.Calm, houtcome]; rfl

/-- Every program without a number that signals has something to report. Assembled programs are of
this sort. -/
theorem run_alone_returns_of_quiet (config : Config) {prog : Program} (hq : prog.Quiet)
    (name : SinkName) : ∃ r, (((start config).load prog name).run 1).2 = .ok r :=
  (run_alone_returns_iff config prog name).mpr
    (Entry.calm_of_quiet config (Process.quiet_start hq))

/-! ## The headline -/

end Machine

end StackMachine
