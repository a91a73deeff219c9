import StackMachine.Kind
import StackMachine.Value.Basic

/-!
# Scheduler configuration

How many instructions a slice may take, and how many slices a process may have.
-/

namespace StackMachine

structure Config where
  stepBudget : Nat := 7
  maxSlices : Option Nat := none
  stepBudget_pos : 0 < stepBudget := by decide
  maxSlices_pos : ∀ n ∈ maxSlices, 0 < n := by simp
deriving DecidableEq

inductive ConfigError where
  | stepBudget (n : Int)
  | maxSlices (n : Int)
deriving DecidableEq, Repr

def ConfigError.message : ConfigError → String
  | .stepBudget n => "step_budget must be positive, got " ++ String.ofList (Kind.intText n)
  | .maxSlices n => "max_slices must be positive, got " ++ String.ofList (Kind.intText n)

namespace Config

def standard : Config := {}

def withBudget (stepBudget : Nat) (h : 0 < stepBudget) : Config :=
  { stepBudget, stepBudget_pos := h }

theorem toNat_pos {n : Int} (h : 0 < n) : 0 < n.toNat := by
  omega

/-- The configuration with the given limits; the step budget is checked first. -/
def make (stepBudget : Int) (maxSlices : Option Int) : Except ConfigError Config :=
  if hb : 0 < stepBudget then
    match maxSlices with
    | none => .ok (withBudget stepBudget.toNat (toNat_pos hb))
    | some n =>
      if hn : 0 < n then
        .ok ⟨stepBudget.toNat, some n.toNat, toNat_pos hb, by simp; omega⟩
      else .error (.maxSlices n)
  else .error (.stepBudget stepBudget)

/-- The limit on slices, if a process with so many slices has reached it. -/
def reachedLimit? (config : Config) (slices : Nat) : Option Nat :=
  config.maxSlices.filter (· ≤ slices)

end Config

end StackMachine
