import Mathlib
import StackMachine.Proofs.Ledger
import StackMachine.Proofs.RoundRobin

/-!
# The scheduler, turn by turn

`Machine.run` and `Machine.runAll` hand the entries of the table on from slice to slice. Here the two
are written as loops that do not: each turn looks its process up by its id, in a table that the turns
before it have changed, and nothing but a limit from outside keeps the loops from going on for ever.
Such a loop can get stuck in two ways. It never does, and it comes to what the machine comes to.

* **`Machine.turn?`**: one turn of one process, and what it leaves of the table.
* **`Machine.loop`**, **`Machine.passes`**: the loops.
* **`Machine.Takes`**: turns of any processes in any order. What a turn keeps, all of them keep.
* **`Machine.loop_eq`**, **`Machine.passes_eq`**: with turns enough, the loops end where the machine does.
* **`Machine.runTurns_spec`**, **`Machine.runAllTurns_spec`**: so both operations are made of turns.
* **`Machine.forall_mem_act`**: what turns and direct calls keep of an entry, all actions keep.
-/

namespace StackMachine

/-! ## Turns -/

/-- A call of a process: its budget, and whether the sink was open when it was made. -/
structure Call where
  budget : Int
  isOpen : Bool
deriving DecidableEq, Repr

/-- A turn of a process: the call it was given, unless its slice was refused, and what came of it. -/
structure Turn where
  call : Option Call
  slice : Slice
deriving DecidableEq

namespace Turn

def pid (t : Turn) : Nat :=
  t.slice.entry.pid

def outcome (t : Turn) : Outcome :=
  t.slice.outcome

/-- The crash that the turn ended with. -/
def crash? (t : Turn) : Option Crash :=
  t.outcome.crash?

/-- The result that the turn gives rise to. -/
def result? (t : Turn) : Option Result :=
  if t.outcome = .running ∨ t.crash?.isSome then none else some t.slice.result

end Turn

namespace Entry

/-- The call that the next slice makes. -/
def nextCall (e : Entry) (config : Config) (out : Sink) : Option Call :=
  match config.reachedLimit? e.slices with
  | some _ => none
  | none => some ⟨config.stepBudget, out.isOpen⟩

def turn (e : Entry) (config : Config) (out : Sink) : Turn :=
  ⟨e.nextCall config out, e.slice config out⟩

/-- The turns that a process can have at most, the last one included. -/
def turnBound (e : Entry) (config : Config) : Nat :=
  (e.process.program.length - e.process.ip) / config.stepBudget + 1

variable {e : Entry} {config : Config} {out : Sink}

@[simp] theorem pid_turn : (e.turn config out).pid = e.pid :=
  pid_slice e config out

/-- A turn is refused by the limit, or it is a call of the process. The refused one leaves the
process and the sink as they are; the other counts one slice more. -/
theorem turn_cases (e : Entry) (config : Config) (out : Sink) :
    (∃ limit, e.turn config out = ⟨none, e, out, .failed (.sliceLimit limit)⟩)
      ∨ e.turn config out =
        ⟨some ⟨config.stepBudget, out.isOpen⟩,
          { e with
            process := (e.process.run out config.stepBudget).process
            slices := e.slices + 1 },
          (e.process.run out config.stepBudget).sink,
          (e.process.run out config.stepBudget).outcome⟩ := by
  unfold turn nextCall slice
  cases config.reachedLimit? e.slices with
  | some limit => exact Or.inl ⟨limit, rfl⟩
  | none => exact Or.inr rfl

/-- A turn after which the process is running was a call of it that came back running. The limit
did not refuse it, so the slices were below it. -/
theorem turn_of_running (h : (e.turn config out).outcome = .running) :
    (e.process.run out config.stepBudget).outcome = .running
      ∧ (e.turn config out).slice.entry =
        { e with
          process := (e.process.run out config.stepBudget).process
          slices := e.slices + 1 } := by
  rcases turn_cases e config out with ⟨limit, ht⟩ | ht
  · rw [ht] at h
    cases h
  · rw [ht] at h ⊢
    exact ⟨h, rfl⟩

/-- A turn after which the process is running takes one off the turns that it can have. Such a
turn executes the whole budget, so the instructions that are left go down by it. -/
theorem turnBound_turn (h : (e.turn config out).outcome = .running) :
    (e.turn config out).slice.entry.turnBound config + 1 = e.turnBound config := by
  obtain ⟨hrun, hentry⟩ := turn_of_running h
  obtain ⟨hremaining, -⟩ := Process.remaining_run hrun
  have hb := config.stepBudget_pos
  rw [hentry]
  show (e.process.run out config.stepBudget).process.remaining / config.stepBudget + 1 + 1
    = e.process.remaining / config.stepBudget + 1
  rw [Int.toNat_natCast] at hremaining
  rw [← hremaining, Nat.add_div_right _ hb]

end Entry

namespace Sinks

theorem set_set (s : Sinks) (name : SinkName) (first second : Sink) :
    (s.set name first).set name second = s.set name second := by
  simp [set, List.filter_filter]

end Sinks

/-- The entry that a turn leaves in the table. -/
def Turn.kept (t : Turn) : List Entry :=
  if t.outcome = .running then [t.slice.entry] else []

theorem Turn.kept_of_running {t : Turn} (h : t.outcome = .running) : t.kept = [t.slice.entry] :=
  if_pos h

theorem Turn.kept_of_ended {t : Turn} (h : t.outcome ≠ .running) : t.kept = [] :=
  if_neg h

/-- Membership in what a turn leaves of its process: the entry, if the process is running, and
nothing otherwise. -/
theorem Turn.mem_kept {t : Turn} {e : Entry} :
    e ∈ t.kept ↔ t.outcome = .running ∧ e = t.slice.entry := by
  by_cases hr : t.outcome = .running
  · simp [kept_of_running hr, hr]
  · simp [kept_of_ended hr, hr]

namespace Machine

/-! ## The table around a process -/

/-- The entry stands in the table between others, and none of them has its id. -/
structure Holds (m : Machine) (before : List Entry) (e : Entry) (after : List Entry) : Prop where
  table : m.table = before ++ e :: after
  before : ∀ x ∈ before, x.pid ≠ e.pid
  after : ∀ x ∈ after, x.pid ≠ e.pid

/-- Ascending ids are all different, so every place in the table is one that `Holds` describes. -/
theorem Ascending.holds {m : Machine} (h : m.Ascending) {before after : List Entry} {e : Entry}
    (htable : m.table = before ++ e :: after) : m.Holds before e after := by
  have hpids := h.pids
  rw [Machine.pids, htable, List.pairwise_map, List.pairwise_append, List.pairwise_cons] at hpids
  obtain ⟨-, ⟨hafter, -⟩, hbefore⟩ := hpids
  refine ⟨htable, ?_, ?_⟩
  · intro x hx
    have := hbefore x hx e List.mem_cons_self
    omega
  · intro x hx
    have := hafter x hx
    omega

namespace Holds

variable {m : Machine} {before after : List Entry} {e : Entry}

theorem mem_iff (h : m.Holds before e after) {x : Entry} :
    x ∈ m.table ↔ x ∈ before ∨ x = e ∨ x ∈ after := by
  rw [h.table, List.mem_append, List.mem_cons]

theorem mem_self (h : m.Holds before e after) : e ∈ m.table :=
  h.mem_iff.mpr (Or.inr (Or.inl rfl))

/-- The process is the one that is found under its id: those before it have other ids. -/
theorem find? (h : m.Holds before e after) : m.find? e.pid = some e := by
  rw [Machine.find?, h.table, List.find?_append, List.find?_eq_none.mpr, Option.none_or]
  · simp
  · intro x hx
    simpa using h.before x hx

/-- Replacing an entry by one with the same id is done in its place. -/
theorem replace (h : m.Holds before e after) {e' : Entry} (hpid : e'.pid = e.pid) :
    (m.replace e').table = before ++ e' :: after := by
  have hkeep : ∀ xs : List Entry, (∀ x ∈ xs, x.pid ≠ e.pid) →
      xs.map (fun old => if old.pid = e'.pid then e' else old) = xs := by
    intro xs hxs
    conv_rhs => rw [← List.map_id xs]
    apply List.map_congr_left
    intro x hx
    rw [if_neg (hpid ▸ hxs x hx), id]
  show m.table.map (fun old => if old.pid = e'.pid then e' else old) = _
  rw [h.table, List.map_append, List.map_cons, hkeep before h.before, hkeep after h.after,
    if_pos hpid.symm]

/-- Removing by id takes out this entry and no other. -/
theorem remove (h : m.Holds before e after) : (m.remove e.pid).table = before ++ after := by
  have hkeep : ∀ xs : List Entry, (∀ x ∈ xs, x.pid ≠ e.pid) → xs.filter (·.pid ≠ e.pid) = xs := by
    intro xs hxs
    apply List.filter_eq_self.mpr
    intro x hx
    simpa using hxs x hx
  show m.table.filter (·.pid ≠ e.pid) = _
  rw [h.table, List.filter_append, List.filter_cons_of_neg (by simp), hkeep before h.before,
    hkeep after h.after]

end Holds

/-! ## One turn -/

/-- The machine after a turn. A process that is not running any more leaves the table. -/
def afterTurn (m : Machine) (t : Turn) : Machine :=
  (if t.outcome = .running then m.replace t.slice.entry else m.remove t.pid).setSink
    t.slice.entry.sink t.slice.sink

/-- A turn of the process with the given id, which has to be in the table. -/
def turn? (m : Machine) (pid : Nat) : Option (Turn × Machine) :=
  (m.find? pid).map fun e =>
    let t := e.turn m.config (m.sinks.get e.sink)
    (t, m.afterTurn t)

/-- A turn of a process in the table, with what it does to its place and to its sink. All
definitions of a turn come together here, and `turn?_eq_some` is its converse. -/
theorem Holds.turn? {m : Machine} {before after : List Entry} {e : Entry}
    (h : m.Holds before e after) :
    let t := e.turn m.config (m.sinks.get e.sink)
    m.turn? e.pid = some (t, { m with
      table := before ++ (t.kept ++ after)
      sinks := m.sinks.set e.sink t.slice.sink }) := by
  intro t
  have hpid : t.slice.entry.pid = e.pid := Entry.pid_turn
  have hsink : t.slice.entry.sink = e.sink := Entry.sink_slice e m.config (m.sinks.get e.sink)
  rw [Machine.turn?, h.find?, Option.map_some]
  show some (t, m.afterTurn t) = _
  rw [afterTurn, hsink]
  by_cases hr : t.outcome = .running
  · rw [if_pos hr, Turn.kept_of_running hr, List.singleton_append, ← h.replace hpid]
    rfl
  · rw [if_neg hr, Turn.kept_of_ended hr, List.nil_append, ← h.remove, ← hpid]
    rfl

/-- **The inversion of a turn.** All but the process whose turn it is stay as they are, and so do
all sinks but its own. Every lemma about what turns preserve starts from here. -/
theorem turn?_eq_some {m m' : Machine} (hm : m.Ascending) {pid : Nat} {t : Turn}
    (h : m.turn? pid = some (t, m')) :
    ∃ before e after, m.Holds before e after ∧ e.pid = pid
      ∧ t = e.turn m.config (m.sinks.get e.sink)
      ∧ m' = { m with
          table := before ++ (t.kept ++ after)
          sinks := m.sinks.set e.sink t.slice.sink } := by
  cases hfind : m.find? pid with
  | none =>
    rw [turn?, hfind] at h
    cases h
  | some e =>
    obtain ⟨before, after, htable⟩ := List.append_of_mem (List.mem_of_find?_eq_some hfind)
    have hpid : e.pid = pid := by simpa using List.find?_some hfind
    have hholds := hm.holds htable
    have hturn := hholds.turn?
    rw [hpid, h] at hturn
    obtain ⟨rfl, rfl⟩ := Prod.mk.inj (Option.some.inj hturn)
    exact ⟨before, e, after, hholds, hpid, rfl, rfl⟩

/-! ## Turns of any processes in any order -/

/-- The turns lead from one machine to the other. -/
inductive Takes : Machine → List Turn → Machine → Prop where
  | nil (m : Machine) : Takes m [] m
  | cons {m m' m'' : Machine} {pid : Nat} {t : Turn} {ts : List Turn}
      (h : m.turn? pid = some (t, m')) (rest : Takes m' ts m'') : Takes m (t :: ts) m''

/-- The id of a process that a turn leaves running, as a list. -/
theorem pids_kept (e : Entry) (config : Config) (out : Sink) :
    ((e.turn config out).kept.map (·.pid)) =
      if (e.turn config out).outcome = .running then [e.pid] else [] := by
  have hpid : (e.turn config out).slice.entry.pid = e.pid := Entry.pid_turn
  unfold Turn.kept
  split
  · rw [List.map_singleton, hpid]
  · rfl

/-- A turn takes at most its own process out of the table. -/
theorem pids_turn_sublist {m m' : Machine} (hm : m.Ascending) {pid : Nat} {t : Turn}
    (h : m.turn? pid = some (t, m')) : m'.pids.Sublist m.pids := by
  obtain ⟨before, e, after, hholds, -, rfl, rfl⟩ := turn?_eq_some hm h
  rw [Machine.pids, Machine.pids, hholds.table, List.map_append, List.map_append, List.map_append,
    pids_kept, List.map_cons]
  apply List.Sublist.append_left
  split
  · exact .refl _
  · exact List.sublist_cons_self _ _

theorem Ascending.turn {m m' : Machine} (hm : m.Ascending) {pid : Nat} {t : Turn}
    (h : m.turn? pid = some (t, m')) : m'.Ascending := by
  refine hm.of_sublist (pids_turn_sublist hm h) ?_
  obtain ⟨before, e, after, -, -, -, rfl⟩ := turn?_eq_some hm h
  rfl

namespace Takes

variable {m m' m'' : Machine} {ts us : List Turn}

/-- Turns that follow each other are turns. Induction on the first ones. -/
theorem append (h : Takes m ts m') (h' : Takes m' us m'') : Takes m (ts ++ us) m'' := by
  induction h with
  | nil => exact h'
  | cons ht _ ih => exact .cons ht (ih h')

/-- Turns keep the ids ascending, which the inversion of the next turn asks for. -/
theorem ascending (h : Takes m ts m') (hm : m.Ascending) : m'.Ascending := by
  induction h with
  | nil => exact hm
  | cons ht _ ih => exact ih (hm.turn ht)

/-- What every turn that leaves its process running keeps of an entry, turns keep of the table.
Induction on the turns: the entries of the table after a turn are those before it and the one that
the turn keeps. -/
theorem forall_mem {P : Entry → Prop} (h : Takes m ts m') (hm : m.Ascending)
    (hturn : ∀ (e : Entry) (out : Sink), P e → (e.turn m.config out).outcome = .running →
      P (e.turn m.config out).slice.entry)
    (h₀ : ∀ e ∈ m.table, P e) : ∀ e ∈ m'.table, P e := by
  induction h with
  | nil => exact h₀
  | cons ht _ ih =>
    obtain ⟨before, e, after, hholds, -, rfl, rfl⟩ := turn?_eq_some hm ht
    refine ih (hm.turn ht) hturn ?_
    intro x hx
    rw [List.mem_append, List.mem_append] at hx
    rcases hx with hx | hx | hx
    · exact h₀ x (hholds.mem_iff.mpr (Or.inl hx))
    · obtain ⟨hr, rfl⟩ := Turn.mem_kept.mp hx
      exact hturn e _ (h₀ e hholds.mem_self) hr
    · exact h₀ x (hholds.mem_iff.mpr (Or.inr (Or.inr hx)))

/-- Turns leave those processes in the table that were running after each turn of theirs.
Induction on the turns; a process that has left gets no further turn, so its last one decides. -/
theorem pids_eq (h : Takes m ts m') (hm : m.Ascending) :
    m'.pids = m.pids.filter fun pid => ∀ t ∈ ts, t.pid = pid → t.outcome = .running := by
  induction h with
  | nil => simp
  | @cons m m' m'' pid t ts ht _ ih =>
    have hm' := hm.turn ht
    obtain ⟨before, e, after, hholds, -, rfl, rfl⟩ := turn?_eq_some hm ht
    -- to the others this turn makes no difference
    have hothers : ∀ xs : List Entry, (∀ x ∈ xs, x.pid ≠ e.pid) →
        (xs.map (·.pid)).filter (fun pid => ∀ u ∈ ts, u.pid = pid → u.outcome = .running)
          = (xs.map (·.pid)).filter (fun pid =>
              ∀ u ∈ e.turn m.config (m.sinks.get e.sink) :: ts, u.pid = pid →
                u.outcome = .running) := by
      intro xs hxs
      apply List.filter_congr
      intro pid hpid
      obtain ⟨x, hx, rfl⟩ := List.mem_map.mp hpid
      simp [Ne.symm (hxs x hx)]
    rw [ih hm', Machine.pids, Machine.pids, hholds.table, List.map_append, List.map_append,
      List.map_append, List.map_cons, List.filter_append, List.filter_append, List.filter_append,
      hothers before hholds.before, hothers after hholds.after, pids_kept]
    congr 1
    by_cases hr : (e.turn m.config (m.sinks.get e.sink)).outcome = .running
    · have hsame : ∀ pid, (∀ u ∈ e.turn m.config (m.sinks.get e.sink) :: ts, u.pid = pid →
          u.outcome = .running) ↔ ∀ u ∈ ts, u.pid = pid → u.outcome = .running := by
        simp [hr]
      simp only [if_pos hr, hsame, ← List.filter_append, List.singleton_append]
    · simp [hr]

/-- Only processes that were in the table at the beginning get turns. -/
theorem pid_mem (h : Takes m ts m') (hm : m.Ascending) : ∀ t ∈ ts, t.pid ∈ m.pids := by
  induction h with
  | nil => simp
  | cons ht _ ih =>
    intro t hmem
    rcases List.mem_cons.mp hmem with rfl | hmem
    · obtain ⟨before, e, after, hholds, -, rfl, -⟩ := turn?_eq_some hm ht
      rw [Entry.pid_turn, Machine.pids, hholds.table]
      simp
    · exact (pids_turn_sublist hm ht).subset (ih (hm.turn ht) t hmem)

/-- **No process has more turns than its bound**, in whatever order the turns come. Induction on
the turns: a turn of the process takes one off its bound by `turnBound_turn` or is its last, and a
turn of another leaves its entry alone. -/
theorem count_le (h : Takes m ts m') (hm : m.Ascending) :
    ∀ e ∈ m.table, ts.countP (·.pid = e.pid) ≤ e.turnBound m.config := by
  induction h with
  | nil => simp
  | @cons m m' m'' pid t ts ht rest ih =>
    intro x hx
    have hm' := hm.turn ht
    have hrest := ih hm'
    have hlater := rest.pid_mem hm'
    obtain ⟨before, e, after, hholds, -, rfl, rfl⟩ := turn?_eq_some hm ht
    rw [List.countP_cons]
    by_cases hxe : x.pid = e.pid
    · -- the turn is one of `x`, which goes on with a smaller bound or leaves the table
      obtain rfl : x = e := by
        rcases hholds.mem_iff.mp hx with hx | rfl | hx
        · exact absurd hxe (hholds.before x hx)
        · rfl
        · exact absurd hxe (hholds.after x hx)
      by_cases hr : (x.turn m.config (m.sinks.get x.sink)).outcome = .running
      · have hpid : (x.turn m.config (m.sinks.get x.sink)).slice.entry.pid = x.pid := Entry.pid_turn
        have hnext : ts.countP (·.pid = x.pid)
            ≤ (x.turn m.config (m.sinks.get x.sink)).slice.entry.turnBound m.config := by
          rw [← hpid]
          exact hrest _ (by simp [Turn.kept_of_running hr])
        have hbound := Entry.turnBound_turn hr
        simp only [Entry.pid_turn, decide_true, if_true]
        omega
      · -- the process has left the table, and only those that are in it get turns
        have hnone : ts.countP (·.pid = x.pid) = 0 := by
          rw [List.countP_eq_zero]
          intro t ht' hpid
          have hmem := hlater t ht'
          rw [of_decide_eq_true hpid] at hmem
          simp only [Machine.pids, Turn.kept_of_ended hr, List.nil_append, List.map_append,
            List.mem_append, List.mem_map] at hmem
          rcases hmem with ⟨y, hy, hpid⟩ | ⟨y, hy, hpid⟩
          · exact hholds.before y hy hpid
          · exact hholds.after y hy hpid
        simp only [hnone, Entry.pid_turn, decide_true, if_true]
        exact Nat.le_add_left 1 _
    · -- the turn is one of another process, and `x` stays as it is
      have hstays : x ∈ before ++ ((e.turn m.config (m.sinks.get e.sink)).kept ++ after) := by
        rcases hholds.mem_iff.mp hx with hx | rfl | hx
        · exact List.mem_append_left _ hx
        · exact absurd rfl hxe
        · exact List.mem_append_right _ (List.mem_append_right _ hx)
      have := hrest x hstays
      simpa [Ne.symm hxe] using this

end Takes

/-! ## The loops -/

/-- Why a loop has not come to an end. -/
inductive Stuck where
  | missing (pid : Nat)
  | unfinished
deriving DecidableEq, Repr

/-- Turns of one process until it is not running any more, if the given number of them is enough. -/
def loop (m : Machine) : Nat → Nat → Except Stuck (List Turn × Machine)
  | 0, _ => .error .unfinished
  | n + 1, pid =>
    match m.turn? pid with
    | none => .error (.missing pid)
    | some (t, m') =>
      if t.outcome = .running then do
        let (ts, m'') ← m'.loop n pid
        return (t :: ts, m'')
      else return ([t], m')

/-- A turn for each of the ids, which were listed beforehand. A crash breaks it off. -/
def pass (m : Machine) : List Nat → Except Stuck (List Turn × Machine)
  | [] => return ([], m)
  | pid :: pids =>
    match m.turn? pid with
    | none => .error (.missing pid)
    | some (t, m') =>
      if t.crash?.isSome then return ([t], m')
      else do
        let (ts, m'') ← m'.pass pids
        return (t :: ts, m'')

/-- Turns for all until no process is left or a crash breaks it off, if the given number of passes is
enough. -/
def passes (m : Machine) (n : Nat) : Except Stuck (List Turn × Machine) :=
  if m.table.isEmpty then return ([], m)
  else
    match n with
    | 0 => .error .unfinished
    | n + 1 => do
      let (ts, m') ← m.pass m.pids
      if (ts.findSome? Turn.crash?).isSome then return (ts, m')
      else
        let (us, m'') ← m'.passes n
        return (ts ++ us, m'')

/-- With nothing in the table no pass is needed. -/
theorem passes_of_empty {m : Machine} (h : m.table = []) (n : Nat) : m.passes n = .ok ([], m) := by
  unfold passes
  rw [h]
  rfl

/-- One pass more: it is the last if it was broken off, and otherwise those on the machine that it
leaves come after it. -/
theorem passes_succ {m m' : Machine} {ts : List Turn} (hne : m.table ≠ [])
    (hpass : m.pass m.pids = .ok (ts, m')) (n : Nat) :
    m.passes (n + 1) =
      if (ts.findSome? Turn.crash?).isSome then .ok (ts, m')
      else (m'.passes n).map fun (us, m'') => (ts ++ us, m'') := by
  rw [passes, if_neg (by simpa using hne), hpass]
  show (if (ts.findSome? Turn.crash?).isSome = true then _ else _) = _
  split
  · rfl
  · cases m'.passes n <;> rfl

/-! ## The loop over one process -/

/-- What is reported when the turns of a process end with this one. -/
def answer (t : Turn) : Except Error Result :=
  match t.crash? with
  | some c => .error (.crashed c)
  | none => .ok t.slice.result

namespace Holds

variable {m : Machine} {before after : List Entry} {e : Entry}

/-- `run` on a process in the table, in terms of the slices to its end: the process leaves the
table, and its sink is what the slices made of it. -/
theorem run (h : m.Holds before e after) :
    let s := e.runToEnd m.config (m.sinks.get e.sink)
    m.run e.pid = ({ m with table := before ++ after, sinks := m.sinks.set e.sink s.sink },
      match s.outcome.crash? with
      | some c => .error (.crashed c)
      | none => .ok s.result) := by
  intro s
  rw [Machine.run, h.find?, ← h.remove]
  rfl

/-- A turn that ends the process is all that `run` does. It is the last round of the loop. -/
theorem run_of_ended (h : m.Holds before e after)
    (hr : (e.turn m.config (m.sinks.get e.sink)).outcome ≠ .running) :
    m.turn? e.pid = some (e.turn m.config (m.sinks.get e.sink), (m.run e.pid).1)
      ∧ (m.run e.pid).2 = answer (e.turn m.config (m.sinks.get e.sink)) := by
  have hend : e.runToEnd m.config (m.sinks.get e.sink) = e.slice m.config (m.sinks.get e.sink) :=
    Entry.runToEnd_of_ended hr
  have hturn := h.turn?
  simp only [Turn.kept_of_ended hr, List.nil_append] at hturn
  rw [h.run, hend]
  exact ⟨hturn, rfl⟩

/-- A turn after which the process is running leaves the rest of `run` to be done: from the
machine after it, `run` gives what it gives now. It is the step of the loop. -/
theorem run_of_running (h : m.Holds before e after)
    (hr : (e.turn m.config (m.sinks.get e.sink)).outcome = .running) :
    ∃ m', m.turn? e.pid = some (e.turn m.config (m.sinks.get e.sink), m') ∧ m'.config = m.config
      ∧ m'.Holds before (e.turn m.config (m.sinks.get e.sink)).slice.entry after
      ∧ m'.run e.pid = m.run e.pid := by
  have hturn := h.turn?
  have hpid : (e.turn m.config (m.sinks.get e.sink)).slice.entry.pid = e.pid := Entry.pid_turn
  have hsink : (e.turn m.config (m.sinks.get e.sink)).slice.entry.sink = e.sink :=
    Entry.sink_slice e m.config (m.sinks.get e.sink)
  have hend : e.runToEnd m.config (m.sinks.get e.sink)
      = (e.turn m.config (m.sinks.get e.sink)).slice.entry.runToEnd m.config
          (e.turn m.config (m.sinks.get e.sink)).slice.sink := Entry.runToEnd_of_running hr
  simp only [Turn.kept_of_running hr, List.singleton_append] at hturn
  have hholds : Holds { m with
      table := before ++ (e.turn m.config (m.sinks.get e.sink)).slice.entry :: after
      sinks := m.sinks.set e.sink (e.turn m.config (m.sinks.get e.sink)).slice.sink }
      before (e.turn m.config (m.sinks.get e.sink)).slice.entry after :=
    ⟨rfl, hpid ▸ h.before, hpid ▸ h.after⟩
  refine ⟨_, hturn, rfl, hholds, ?_⟩
  -- the slices that follow start from the sink that this one has left
  have hrun := hholds.run
  rw [hpid, hsink] at hrun
  rw [hrun, h.run, hend, Sinks.get_set_self, Sinks.set_set]

end Holds

/-- **The loop over one process ends where `run` does**, if it may take the turns of its bound. All
its turns but the last leave the process running, and the last one tells what is reported. -/
theorem loop_eq {k : Nat} {m : Machine} {before after : List Entry} {e : Entry}
    (h : m.Holds before e after) (hk : e.turnBound m.config ≤ k) :
    ∃ front last, (∀ n, k ≤ n → m.loop n e.pid = .ok (front ++ [last], (m.run e.pid).1))
      ∧ Takes m (front ++ [last]) (m.run e.pid).1
      ∧ (∀ t ∈ front, t.pid = e.pid ∧ t.outcome = .running) ∧ last.pid = e.pid
      ∧ last.outcome ≠ .running ∧ (m.run e.pid).2 = answer last := by
  -- on the bound: a turn that leaves the process running takes one off it
  induction k generalizing m e with
  | zero => cases hk
  | succ k ih =>
    by_cases hr : (e.turn m.config (m.sinks.get e.sink)).outcome = .running
    · obtain ⟨m', hturn, hconfig, hholds, hrun⟩ := h.run_of_running hr
      have hbound := Entry.turnBound_turn hr
      obtain ⟨front, last, hloop, htakes, hrunning, hpid, hended, hanswer⟩ :=
        ih hholds (by rw [hconfig]; omega)
      rw [show (e.turn m.config (m.sinks.get e.sink)).slice.entry.pid = e.pid from Entry.pid_turn]
        at hloop htakes hrunning hpid hanswer
      rw [hrun] at hloop htakes hanswer
      refine ⟨_ :: front, last, ?_, .cons hturn htakes, ?_, hpid, hended, hanswer⟩
      · intro n hn
        obtain ⟨n, rfl⟩ := Nat.exists_eq_add_of_le' (Nat.le_of_add_left_le hn)
        rw [loop, hturn]
        simp only [if_pos hr, hloop n (by omega)]
        rfl
      · intro t ht
        rcases List.mem_cons.mp ht with rfl | ht
        · exact ⟨Entry.pid_turn, hr⟩
        · exact hrunning t ht
    · obtain ⟨hturn, hanswer⟩ := h.run_of_ended hr
      refine ⟨[], _, ?_, .cons hturn (.nil _), by simp, Entry.pid_turn, hr, hanswer⟩
      intro n hn
      obtain ⟨n, rfl⟩ := Nat.exists_eq_add_of_le' (Nat.le_of_add_left_le hn)
      rw [loop, hturn]
      simp only [if_neg hr]
      rfl

end Machine

/-! ## The loop over all processes -/

/-- A round is a turn of its first process and the round of the others after it. It holds as long
as the turn does not crash. -/
theorem runRound_cons_of_turn {config : Config} {e : Entry} {es : List Entry} {sinks : Sinks}
    (hcalm : (e.turn config (sinks.get e.sink)).crash? = none) :
    let t := e.turn config (sinks.get e.sink)
    let r := runRound config es (sinks.set e.sink t.slice.sink)
    runRound config (e :: es) sinks =
      { r with table := t.kept ++ r.table, finished := t.result?.toList ++ r.finished } := by
  intro t r
  by_cases hr : t.outcome = .running
  · rw [runRound_cons_of_running hr, Turn.kept_of_running hr, Turn.result?, if_pos (Or.inl hr)]
    rfl
  · have hnot : ¬ (t.outcome = .running ∨ t.crash?.isSome = true) := by simp [hr, t, hcalm]
    rw [runRound_cons_of_ended hr hcalm, Turn.kept_of_ended hr, Turn.result?, if_neg hnot]
    rfl

/-- A turn that crashes breaks the round off. Its process is gone, and the others have had no
turn. -/
theorem runRound_cons_of_crash {config : Config} {e : Entry} {es : List Entry} {sinks : Sinks}
    {c : Crash} (hcrash : (e.turn config (sinks.get e.sink)).crash? = some c) :
    runRound config (e :: es) sinks =
      ⟨es, sinks.set e.sink (e.turn config (sinks.get e.sink)).slice.sink, [], some c⟩ := by
  have houtcome : (e.slice config (sinks.get e.sink)).outcome = .crashed c :=
    Outcome.crash?_eq_some.mp hcrash
  simp only [runRound, houtcome]
  rfl

/-- What is in the table after a round that was not broken off has had its turn, and was running
after it. Induction over the table. By this the bounds of all that are left have gone down. -/
theorem exists_turn_of_mem_runRound {config : Config} {table : List Entry} {sinks : Sinks} {x : Entry}
    (h : (runRound config table sinks).crash = none)
    (hx : x ∈ (runRound config table sinks).table) :
    ∃ e ∈ table, ∃ out, (e.turn config out).outcome = .running ∧ x = (e.turn config out).slice.entry := by
  induction table generalizing sinks with
  | nil => cases hx
  | cons e es ih =>
    cases hcrash : (e.turn config (sinks.get e.sink)).crash? with
    | some c =>
      rw [runRound_cons_of_crash hcrash] at h
      cases h
    | none =>
      rw [runRound_cons_of_turn hcrash] at h hx
      rcases List.mem_append.mp hx with hx | hx
      · obtain ⟨hr, rfl⟩ := Turn.mem_kept.mp hx
        exact ⟨e, List.mem_cons_self, _, hr, rfl⟩
      · obtain ⟨e', he', hout⟩ := ih h hx
        exact ⟨e', List.mem_cons_of_mem e he', hout⟩

namespace Machine

/-- The machine after a round of some of its processes. -/
def afterRound (m : Machine) (before : List Entry) (r : Round) : Machine :=
  { m with table := before ++ r.table, sinks := r.sinks }

/-- **A pass over the ids is a round of the entries.** Ids are looked up in a table that changes, but
a turn changes it only where it looks. -/
theorem pass_eq {m : Machine} (hm : m.Ascending) {before es : List Entry}
    (htable : m.table = before ++ es) :
    ∃ ts, m.pass (es.map (·.pid)) = .ok (ts, m.afterRound before (runRound m.config es m.sinks))
      ∧ Takes m ts (m.afterRound before (runRound m.config es m.sinks))
      ∧ ts.filterMap Turn.result? = (runRound m.config es m.sinks).finished
      ∧ ts.findSome? Turn.crash? = (runRound m.config es m.sinks).crash
      ∧ ∀ t ∈ ts.dropLast, t.crash? = none := by
  -- on the processes still to come; those before them have had their turn
  induction es generalizing m before with
  | nil =>
    have hsame : m.afterRound before (runRound m.config [] m.sinks) = m := by
      show { m with table := before ++ [] } = m
      rw [← htable]
    rw [hsame]
    exact ⟨[], rfl, .nil m, rfl, rfl, by simp⟩
  | cons e es ih =>
    have hholds := hm.holds htable
    have hturn := hholds.turn?
    cases hcrash : (e.turn m.config (m.sinks.get e.sink)).crash? with
    | some c =>
      -- the crash takes its process out and leaves the others as they are
      have hr : (e.turn m.config (m.sinks.get e.sink)).outcome ≠ .running := by
        rw [Outcome.crash?_eq_some.mp hcrash]
        nofun
      simp only [Turn.kept_of_ended hr, List.nil_append] at hturn
      rw [runRound_cons_of_crash hcrash]
      refine ⟨[_], ?_, .cons hturn (.nil _), ?_, ?_, by simp⟩
      · rw [List.map_cons, pass, hturn]
        simp only [hcrash, Option.isSome_some, if_true]
        rfl
      · simp [Turn.result?, hcrash]
      · simp [hcrash]
    | none =>
      have hm' := hm.turn hturn
      obtain ⟨ts, hpass, htakes, hfinished, hfound, hlast⟩ :=
        ih hm' (List.append_assoc before (e.turn m.config (m.sinks.get e.sink)).kept es).symm
      rw [runRound_cons_of_turn hcrash]
      simp only [afterRound, List.append_assoc] at hpass htakes hfinished hfound
      refine ⟨_ :: ts, ?_, .cons hturn htakes, ?_, ?_, ?_⟩
      · rw [List.map_cons, pass, hturn]
        simp only [hcrash, hpass]
        rfl
      · rw [List.filterMap_cons, hfinished]
        cases (e.turn m.config (m.sinks.get e.sink)).result? <;> rfl
      · rw [List.findSome?_cons, hcrash]
        exact hfound
      · intro t ht
        cases ts with
        | nil => simp at ht
        | cons u us =>
          rw [List.dropLast_cons_cons] at ht
          rcases List.mem_cons.mp ht with rfl | ht
          · exact hcrash
          · exact hlast t ht

/-- What is reported of turns that end here. -/
def answerAll (ts : List Turn) : Except Error (List Result) :=
  match ts.findSome? Turn.crash? with
  | some c => .error (.crashed c)
  | none => .ok (ts.filterMap Turn.result?)

theorem runAll_of_empty {m : Machine} (h : m.table = []) : m.runAll = (m, .ok []) := by
  obtain ⟨config, lastPid, table, sinks⟩ := m
  obtain rfl : table = [] := h
  simp only [runAll, runRounds]

/-- A round that is broken off is the last one, and its crash is the answer of `runAll`. -/
theorem runAll_of_broken {m : Machine} (hne : m.table ≠ []) {c : Crash}
    (h : (runRound m.config m.table m.sinks).crash = some c) :
    m.runAll = (m.afterRound [] (runRound m.config m.table m.sinks), .error (.crashed c)) := by
  obtain ⟨e, es, htable⟩ := List.exists_cons_of_ne_nil hne
  have hrounds : runRounds m.config m.table m.sinks = runRound m.config m.table m.sinks := by
    rw [htable] at h ⊢
    rw [runRounds, if_pos (by rw [h]; rfl)]
  simp only [runAll, hrounds, h]
  rfl

/-- A round that is not leaves the rest to the machine after it. What has ended in it is reported
before what ends later. -/
theorem runAll_of_unbroken {m : Machine} (hne : m.table ≠ [])
    (h : (runRound m.config m.table m.sinks).crash = none) :
    let m' := m.afterRound [] (runRound m.config m.table m.sinks)
    m.runAll = (m'.runAll.1, m'.runAll.2.map ((runRound m.config m.table m.sinks).finished ++ ·)) := by
  intro m'
  obtain ⟨e, es, htable⟩ := List.exists_cons_of_ne_nil hne
  -- the rounds are this one and those of the machine after it
  have hrounds : runRounds m.config m.table m.sinks
      = { runRounds m'.config m'.table m'.sinks with
          finished := (runRound m.config m.table m.sinks).finished
            ++ (runRounds m'.config m'.table m'.sinks).finished } := by
    have hm' : m'.table = (runRound m.config m.table m.sinks).table := List.nil_append _
    rw [hm']
    show runRounds m.config m.table m.sinks
      = { runRounds m.config (runRound m.config m.table m.sinks).table
            (runRound m.config m.table m.sinks).sinks with
          finished := (runRound m.config m.table m.sinks).finished
            ++ (runRounds m.config (runRound m.config m.table m.sinks).table
              (runRound m.config m.table m.sinks).sinks).finished }
    rw [htable] at h ⊢
    rw [runRounds, if_neg (by simp [h])]
  simp only [runAll, hrounds]
  cases (runRounds m'.config m'.table m'.sinks).crash <;> rfl

/-- **The loop over all processes ends where `runAll` does**, if it may make as many passes as there
are turns in the bound of any process. Nothing comes after a crash. -/
theorem passes_eq {k : Nat} {m : Machine} (hm : m.Ascending)
    (hk : ∀ e ∈ m.table, e.turnBound m.config ≤ k) :
    ∃ ts, (∀ n, k ≤ n → m.passes n = .ok (ts, m.runAll.1)) ∧ Takes m ts m.runAll.1
      ∧ m.runAll.2 = answerAll ts ∧ ∀ t ∈ ts.dropLast, t.crash? = none := by
  have hnone (m : Machine) (h : m.table = []) :
      ∃ ts, (∀ n, m.passes n = .ok (ts, m.runAll.1)) ∧ Takes m ts m.runAll.1
        ∧ m.runAll.2 = answerAll ts ∧ ∀ t ∈ ts.dropLast, t.crash? = none := by
    rw [runAll_of_empty h]
    exact ⟨[], passes_of_empty h, .nil m, rfl, by simp⟩
  induction k generalizing m with
  | zero =>
    -- no process is allowed a turn, so there is none
    obtain ⟨ts, hpasses, hts⟩ :=
      hnone m (List.eq_nil_iff_forall_not_mem.mpr fun e he => nomatch hk e he)
    exact ⟨ts, fun n _ => hpasses n, hts⟩
  | succ k ih =>
    by_cases hempty : m.table = []
    · obtain ⟨ts, hpasses, hts⟩ := hnone m hempty
      exact ⟨ts, fun n _ => hpasses n, hts⟩
    obtain ⟨ts, hpass, htakes, hfinished, hfound, hlast⟩ :=
      pass_eq hm (List.nil_append m.table).symm
    have hsucc := passes_succ hempty hpass
    cases hcrash : (runRound m.config m.table m.sinks).crash with
    | some c =>
      rw [hcrash] at hfound
      rw [runAll_of_broken hempty hcrash]
      refine ⟨ts, ?_, htakes, by simp [answerAll, hfound], hlast⟩
      intro n hn
      obtain ⟨n, rfl⟩ := Nat.exists_eq_add_of_le' (Nat.le_of_add_left_le hn)
      rw [hsucc, if_pos (by rw [hfound]; rfl)]
    | none =>
      rw [hcrash] at hfound
      -- everyone who is left has had a turn, which has taken one off the bound
      have hbound : ∀ x ∈ (runRound m.config m.table m.sinks).table, x.turnBound m.config ≤ k := by
        intro x hx
        obtain ⟨e, he, out, hr, rfl⟩ := exists_turn_of_mem_runRound hcrash hx
        have h₁ := hk e he
        have h₂ := Entry.turnBound_turn hr
        omega
      obtain ⟨us, hpasses, htakes', hanswer, hlast'⟩ :=
        ih (m := m.afterRound [] (runRound m.config m.table m.sinks)) (htakes.ascending hm) hbound
      rw [runAll_of_unbroken hempty hcrash]
      refine ⟨ts ++ us, ?_, htakes.append htakes', ?_, ?_⟩
      · intro n hn
        obtain ⟨n, rfl⟩ := Nat.exists_eq_add_of_le' (Nat.le_of_add_left_le hn)
        rw [hsucc, if_neg (by simp [hfound]), hpasses n (by omega)]
        rfl
      · simp only [hanswer, answerAll, List.findSome?_append, hfound, Option.none_or,
          List.filterMap_append, hfinished]
        cases us.findSome? Turn.crash? <;> rfl
      · have hcalm : ∀ t ∈ ts, t.crash? = none := by simpa using hfound
        intro t ht
        by_cases hus : us = []
        · rw [hus, List.append_nil] at ht
          exact hlast t ht
        · rw [List.dropLast_append_of_ne_nil hus] at ht
          rcases List.mem_append.mp ht with ht | ht
          · exact hcalm t ht
          · exact hlast' t ht

/-! ## Direct calls -/

/-- The direct run of a process changes that process and its sink, and leaves it in the table. The
limit on slices and the budget of the configuration play no part in it. -/
theorem Holds.stepProcess {m : Machine} {before after : List Entry} {e : Entry}
    (h : m.Holds before e after) (budget : Int) :
    m.stepProcess e.pid budget =
      ({ m with
          table := before
            ++ { e with process := (e.process.run (m.sinks.get e.sink) budget).process } :: after
          sinks := m.sinks.set e.sink (e.process.run (m.sinks.get e.sink) budget).sink },
        .ok (e.process.run (m.sinks.get e.sink) budget).outcome) := by
  have hpid :
      { e with process := (e.process.run (m.sinks.get e.sink) budget).process }.pid = e.pid := rfl
  rw [Machine.stepProcess, h.find?, ← h.replace hpid]
  rfl

theorem stepProcess_of_not_found {m : Machine} {pid : Int} (h : m.find? pid = none) (budget : Int) :
    m.stepProcess pid budget = (m, .error (.unknownProcess pid)) := by
  rw [Machine.stepProcess, h]

/-! ## The turns of an operation -/

/-- The turns of `run`, as the loop takes them. -/
def runTurns (m : Machine) (pid : Int) : List Turn :=
  match m.find? pid with
  | none => []
  | some e =>
    match m.loop (e.turnBound m.config) e.pid with
    | .ok (ts, _) => ts
    | .error _ => []

/-- The passes that are enough for all processes. -/
def passBound (m : Machine) : Nat :=
  (m.table.map (·.turnBound m.config)).foldr max 0

/-- The turns of `runAll`, as the loop takes them. -/
def runAllTurns (m : Machine) : List Turn :=
  match m.passes m.passBound with
  | .ok (ts, _) => ts
  | .error _ => []

/-- The bound on the passes is the largest bound of a process. Induction over the table. -/
theorem turnBound_le_passBound (m : Machine) : ∀ e ∈ m.table, e.turnBound m.config ≤ m.passBound := by
  unfold passBound
  induction m.table with
  | nil => simp
  | cons x xs ih =>
    intro e he
    rw [List.map_cons, List.foldr_cons]
    rcases List.mem_cons.mp he with rfl | he
    · exact Nat.le_max_left _ _
    · exact Nat.le_trans (ih e he) (Nat.le_max_right _ _)

/-- A process that is found is the only one with its id, so it holds its place in the sense of
`Holds`. -/
theorem Ascending.holds_of_find? {m : Machine} (hm : m.Ascending) {pid : Int} {e : Entry}
    (h : m.find? pid = some e) : (e.pid : Int) = pid ∧ ∃ before after, m.Holds before e after := by
  obtain ⟨before, after, htable⟩ := List.append_of_mem (List.mem_of_find?_eq_some h)
  exact ⟨by simpa using List.find?_some h, before, after, hm.holds htable⟩

/-- **`run` is made of turns** of its process, which the loop takes whenever it may. All turns but
the last leave the process running, and the last one is what is answered. -/
theorem runTurns_spec {m : Machine} (hm : m.Ascending) {pid : Int} {e : Entry}
    (h : m.find? pid = some e) :
    (∀ n, e.turnBound m.config ≤ n → m.loop n e.pid = .ok (m.runTurns pid, (m.run pid).1))
      ∧ Takes m (m.runTurns pid) (m.run pid).1
      ∧ ∃ front last, m.runTurns pid = front ++ [last]
        ∧ (∀ t ∈ front, t.pid = e.pid ∧ t.outcome = .running) ∧ last.pid = e.pid
        ∧ last.outcome ≠ .running ∧ (m.run pid).2 = answer last := by
  obtain ⟨rfl, before, after, hholds⟩ := hm.holds_of_find? h
  obtain ⟨front, last, hloop, htakes, hturns⟩ := loop_eq hholds (Nat.le_refl _)
  have heq : m.runTurns e.pid = front ++ [last] := by
    rw [runTurns, h]
    simp only [hloop _ (Nat.le_refl _)]
  rw [heq]
  exact ⟨hloop, htakes, front, last, rfl, hturns⟩

/-- **`runAll` is made of turns**, which the loop takes whenever it may. No turn but the last can
have crashed, and the answer is read off the turns. -/
theorem runAllTurns_spec {m : Machine} (hm : m.Ascending) :
    (∀ n, (∀ e ∈ m.table, e.turnBound m.config ≤ n) → m.passes n = .ok (m.runAllTurns, m.runAll.1))
      ∧ Takes m m.runAllTurns m.runAll.1 ∧ m.runAll.2 = answerAll m.runAllTurns
      ∧ ∀ t ∈ m.runAllTurns.dropLast, t.crash? = none := by
  -- any number of passes that is enough shows the same turns as the one they were told by
  have hany : ∀ k, (∀ e ∈ m.table, e.turnBound m.config ≤ k) →
      m.passes k = .ok (m.runAllTurns, m.runAll.1) ∧ Takes m m.runAllTurns m.runAll.1
        ∧ m.runAll.2 = answerAll m.runAllTurns ∧ ∀ t ∈ m.runAllTurns.dropLast, t.crash? = none := by
    intro k hk
    obtain ⟨ts, hpasses, hts⟩ :=
      passes_eq hm (k := min k m.passBound) fun e he =>
        Nat.le_min.mpr ⟨hk e he, m.turnBound_le_passBound e he⟩
    have hturns : m.runAllTurns = ts := by
      rw [runAllTurns, hpasses _ (Nat.min_le_right _ _)]
    rw [hturns]
    exact ⟨hpasses k (Nat.min_le_left _ _), hts⟩
  exact ⟨fun n hn => (hany n hn).1, (hany _ m.turnBound_le_passBound).2⟩

/-- `run` is made of turns also where it is refused, for then there are none. -/
theorem takes_run {m : Machine} (hm : m.Ascending) (pid : Int) :
    Takes m (m.runTurns pid) (m.run pid).1 := by
  cases h : m.find? pid with
  | none =>
    rw [runTurns, run, h]
    exact .nil m
  | some e => exact (runTurns_spec hm h).2.1

/-! ## Actions -/

/-- What can be done with a machine from outside. -/
inductive Action where
  | load (prog : Program) (name : SinkName)
  | run (pid : Int)
  | runAll
  | call (pid budget : Int)
  | setConfig (config : Config)
  | setSink (name : SinkName) (sink : Sink)

def act (m : Machine) : Action → Machine
  | .load prog name => m.load prog name
  | .run pid => (m.run pid).1
  | .runAll => m.runAll.1
  | .call pid budget => (m.stepProcess pid budget).1
  | .setConfig config => { m with config := config }
  | .setSink name sink => m.setSink name sink

/-- Every action is one of the operations, so actions keep a machine reachable. -/
theorem Reachable.act {m : Machine} (hm : m.Reachable) (a : Action) : (m.act a).Reachable := by
  cases a with
  | load prog name => exact hm.load prog name
  | run pid => exact hm.run pid
  | runAll => exact hm.runAll
  | call pid budget => exact hm.stepProcess pid budget
  | setConfig config => exact hm.setConfig config
  | setSink name sink => exact hm.setSink name sink

/-- **What an action keeps of the entries**: what holds of fresh ones and is kept by turns that leave
their process running, and by direct calls if the action is one. -/
theorem forall_mem_act {P : Entry → Prop} {m : Machine} (hm : m.Ascending) (a : Action)
    (hfresh : ∀ (pid : Nat) (prog : Program) (name : SinkName), P ⟨pid, prog.start, 0, name⟩)
    (hturn : ∀ (e : Entry) (out : Sink), P e → (e.turn m.config out).outcome = .running →
      P (e.turn m.config out).slice.entry)
    (hcall : ∀ pid budget, a = .call pid budget → ∀ (e : Entry) (out : Sink), P e →
      P { e with process := (e.process.run out budget).process })
    (h₀ : ∀ e ∈ m.table, P e) : ∀ e ∈ (m.act a).table, P e := by
  -- a new entry is fresh, turns keep the property, and so does the one direct call
  cases a with
  | load prog name =>
    intro e he
    rcases List.mem_append.mp he with he | he
    · exact h₀ e he
    · rw [List.mem_singleton.mp he]
      exact hfresh _ prog name
  | run pid => exact (takes_run hm pid).forall_mem hm hturn h₀
  | runAll => exact (runAllTurns_spec hm).2.1.forall_mem hm hturn h₀
  | call pid budget =>
    show ∀ e ∈ (m.stepProcess pid budget).1.table, P e
    cases hfind : m.find? pid with
    | none =>
      rw [stepProcess_of_not_found hfind]
      exact h₀
    | some e =>
      obtain ⟨rfl, before, after, hholds⟩ := hm.holds_of_find? hfind
      rw [hholds.stepProcess]
      intro x hx
      rw [List.mem_append, List.mem_cons] at hx
      rcases hx with hx | rfl | hx
      · exact h₀ x (hholds.mem_iff.mpr (Or.inl hx))
      · exact hcall _ budget rfl e _ (h₀ e hholds.mem_self)
      · exact h₀ x (hholds.mem_iff.mpr (Or.inr (Or.inr hx)))
  | setConfig config => exact h₀
  | setSink name sink => exact h₀

end Machine

end StackMachine
