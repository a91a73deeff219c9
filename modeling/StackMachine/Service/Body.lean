import StackMachine.Machine.Config
import StackMachine.Service.Integer

/-!
# Request bodies

The fields of a request body and what can be wrong with them. All faults of a body are reported
together, in the order of the fields.
-/

namespace StackMachine.Service

def readSource (body : Json) : Except Issue String :=
  match body.field? "source" with
  | none => .error .missing
  | some (.string s) => .ok s
  | some _ => .error .notString

def readStepBudget (body : Json) : Except Issue Positive :=
  match body.field? "step_budget" with
  | none => .ok ⟨Config.standard.stepBudget, Config.standard.stepBudget_pos⟩
  | some j => readPositive j

def readMaxSlices (body : Json) : Except Issue (Option Positive) :=
  match body.field? "max_slices" with
  | none => .ok none
  | some .null => .ok none
  | some j => (readPositive j).map some

def problemIn {α : Type} (field : String) : Except Issue α → List Problem
  | .error issue => [⟨issue, some field⟩]
  | .ok _ => []

/-- The body of a request, which must be an object. -/
def requireObject : Option Json → Except (List Problem) Json
  | none => .error [⟨.missing, none⟩]
  | some (.object fields) => .ok (.object fields)
  | some _ => .error [⟨.notObject, none⟩]

def limits (budget : Positive) (slices : Option Positive) : Config :=
  { stepBudget := budget.val
    maxSlices := slices.map (·.val)
    stepBudget_pos := budget.pos
    maxSlices_pos := by
      cases slices with
      | none => simp
      | some s => simpa using s.pos }

/-- A source and the limits under which it is to run. -/
structure Job where
  source : String
  config : Config
deriving DecidableEq

def readJob (body : Json) : Except (List Problem) Job :=
  let source := readSource body
  let budget := readStepBudget body
  let slices := readMaxSlices body
  match source, budget, slices with
  | .ok source, .ok budget, .ok slices => .ok ⟨source, limits budget slices⟩
  | _, _, _ =>
    .error (problemIn "source" source ++ problemIn "step_budget" budget
      ++ problemIn "max_slices" slices)

def readSourceOnly (body : Json) : Except (List Problem) String :=
  match readSource body with
  | .ok source => .ok source
  | .error issue => .error (problemIn "source" (Except.error issue : Except Issue String))

end StackMachine.Service
