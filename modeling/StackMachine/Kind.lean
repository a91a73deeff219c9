import StackMachine.Binary.Text

/-!
# Kinds of numbers

The six kinds in their rank order: three widths of integers, two binary formats, and decimals.
-/

namespace StackMachine

inductive IntKind where
  | int8
  | int16
  | int32
deriving DecidableEq, Repr

inductive FloatKind where
  | float
  | double
deriving DecidableEq, Repr

inductive Kind where
  | integer (k : IntKind)
  | floating (k : FloatKind)
  | bigdecimal
deriving DecidableEq, Repr

namespace IntKind

def bits : IntKind → Nat
  | .int8 => 8
  | .int16 => 16
  | .int32 => 32

def name : IntKind → String
  | .int8 => "int8"
  | .int16 => "int16"
  | .int32 => "int32"

def least (k : IntKind) : Int :=
  -(Nat.pow 2 (k.bits - 1) : Int)

def greatest (k : IntKind) : Int :=
  (Nat.pow 2 (k.bits - 1) : Int) - 1

def InRange (k : IntKind) (n : Int) : Prop :=
  k.least ≤ n ∧ n ≤ k.greatest

instance (k : IntKind) (n : Int) : Decidable (k.InRange n) :=
  inferInstanceAs (Decidable (_ ∧ _))

theorem InRange.widen {j k : IntKind} {n : Int} (h : j.InRange n) (hjk : j.bits ≤ k.bits) :
    k.InRange n := by
  cases j <;> cases k <;> simp only [InRange, least, greatest, bits, Nat.pow_eq] at * <;> omega

end IntKind

namespace FloatKind

def format : FloatKind → Format
  | .float => .single
  | .double => .double

def name : FloatKind → String
  | .float => "float"
  | .double => "double"

/-- Doubles are written with a point up to sixteen places, floats up to six. -/
def layout : FloatKind → Binary.Layout
  | .float => ⟨-4, 6⟩
  | .double => ⟨-4, 16⟩

end FloatKind

namespace Kind

def name : Kind → String
  | .integer k => k.name
  | .floating k => k.name
  | .bigdecimal => "bigdecimal"

/-- All kinds, lowest rank first. -/
def all : List Kind :=
  [.integer .int8, .integer .int16, .integer .int32, .floating .float, .floating .double,
    .bigdecimal]

def ofName? (name : List Char) : Option Kind :=
  all.find? (·.name.toList == name)

def rank : Kind → Nat
  | .integer .int8 => 0
  | .integer .int16 => 1
  | .integer .int32 => 2
  | .floating .float => 3
  | .floating .double => 4
  | .bigdecimal => 5

def isInteger : Kind → Bool
  | .integer _ => true
  | _ => false

def isFloating : Kind → Bool
  | .floating _ => true
  | _ => false

instance : LE Kind := ⟨fun j k => j.rank ≤ k.rank⟩

instance (j k : Kind) : Decidable (j ≤ k) :=
  inferInstanceAs (Decidable (j.rank ≤ k.rank))

theorem bits_le_of_le {j k : IntKind} (h : integer j ≤ integer k) : j.bits ≤ k.bits := by
  revert h
  cases j <;> cases k <;> decide

/-- The higher of two kinds. -/
def join (j k : Kind) : Kind :=
  if k ≤ j then j else k

theorem le_join_left (j k : Kind) : j ≤ join j k := by
  unfold join
  split
  · exact Nat.le_refl j.rank
  · next h => exact Nat.le_of_lt (Nat.lt_of_not_le h)

theorem le_join_right (j k : Kind) : k ≤ join j k := by
  unfold join
  split
  · assumption
  · exact Nat.le_refl k.rank

end Kind

end StackMachine
