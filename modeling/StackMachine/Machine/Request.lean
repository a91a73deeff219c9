import StackMachine.Machine.Basic

/-!
# Requests to a machine

The operations of a machine as data, so that a history of a machine is a list. Each request is
answered, or refused with the reason; `perform` gives the machine afterwards in either case.
-/

namespace StackMachine.Machine

inductive Request where
  /-- Assembles a source and loads it; its output goes to the named sink or to the shared one. -/
  | load (source : String) (sink : Option String)
  | run (pid : Int)
  | runAll
  | get (pid : Int)
  | step (pid : Int) (budget : Int)
  | contains (pid : Int)
  | showConfig
  | setConfig (stepBudget : Int) (maxSlices : Option Int)
  | closeShared
deriving DecidableEq

inductive Response where
  | loaded (pid : Nat)
  | ended (r : Result)
  | allEnded (rs : List Result)
  | seen (s : Snapshot)
  | stepped (running : Bool)
  | contained (b : Bool)
  | configured (c : Config)
  | closed
deriving DecidableEq

inductive Refusal where
  | source (e : AssemblyError)
  | machine (e : Error)
  | failure (e : Failure)
  | config (e : ConfigError)
deriving DecidableEq

/-- The sink of the given name, now in use. -/
def openSink (m : Machine) (name : SinkName) : Machine :=
  m.setSink name (m.sinks.get name)

def perform (m : Machine) : Request → Machine × Except Refusal Response
  | .load source sink =>
    let name := match sink with
      | some text => .named text
      | none => .shared
    -- the sink is in use even if the source turns out to be wrong
    let m := m.openSink name
    match assemble source with
    | .error e => (m, .error (.source e))
    | .ok p => (m.load p name, .ok (.loaded m.nextPid))
  | .run pid =>
    let (m, answer) := m.run pid
    (m, (answer.map .ended).mapError .machine)
  | .runAll =>
    let (m, answer) := m.runAll
    (m, (answer.map .allEnded).mapError .machine)
  | .get pid =>
    match m.find? pid with
    | some e => (m, .ok (.seen e.process.snapshot))
    | none => (m, .error (.machine (.unknownProcess pid)))
  | .step pid budget =>
    let (m, answer) := m.stepProcess pid budget
    (m, match answer with
      | .error e => .error (.machine e)
      | .ok (.crashed c) => .error (.machine (.crashed c))
      | .ok (.failed e) => .error (.failure e)
      | .ok .exited => .ok (.stepped false)
      | .ok .running => .ok (.stepped true))
  | .contains pid => (m, .ok (.contained (m.find? pid).isSome))
  | .showConfig => (m, .ok (.configured m.config))
  | .setConfig stepBudget maxSlices =>
    match Config.make stepBudget maxSlices with
    | .error e => (m, .error (.config e))
    | .ok c => ({ m with config := c }, .ok (.configured c))
  | .closeShared => (m.setSink .shared (m.sinks.get .shared).close, .ok .closed)

/-- Performs requests one after the other and collects the answers, each with the machine as it
was just after. -/
def performAll (m : Machine) : List Request → List (Machine × Except Refusal Response)
  | [] => []
  | r :: rs =>
    let (m, answer) := m.perform r
    (m, answer) :: m.performAll rs

end StackMachine.Machine
