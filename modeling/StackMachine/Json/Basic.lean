import StackMachine.Value.Basic

/-!
# JSON

JSON values. A number written without fraction and exponent is an integer of any size; every other
number is a double.
-/

namespace StackMachine

inductive Json where
  | null
  | bool (b : Bool)
  | integer (n : Int)
  | floating (x : Binary .double)
  | string (s : String)
  | array (items : List Json)
  | object (fields : List (String × Json))
deriving Inhabited

namespace Json

def nat (n : Nat) : Json := .integer n

/-- A value, or `null` if there is none. -/
def orNull {α : Type} (encode : α → Json) : Option α → Json
  | some a => encode a
  | none => .null

/-- The field of an object with the given name; of several with one name, the last. -/
def field? (name : String) : Json → Option Json
  | .object fields => (fields.reverse.find? (·.1 == name)).map (·.2)
  | _ => none

end Json

end StackMachine
