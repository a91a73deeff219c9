/-!
# Why a text cannot be read

A text either breaks a rule of the form it is read as, or it is well formed and holds an integer
of more digits than are ever converted. The second case is kept apart: it is no fault of the
text's form, carries no line, and nothing that reads larger texts may turn it into one.
-/

namespace StackMachine

/-- The longest row of digits that is converted between text and integer. -/
def digitLimit : Nat := 4300

/-- What is said of an integer with too many digits to be written. -/
def unwritableMessage : String :=
  s!"Exceeds the limit ({digitLimit} digits) for integer string conversion; "
    ++ "use sys.set_int_max_str_digits() to increase the limit"

/-- A row of digits that is too long to be converted. -/
structure TooManyDigits where
  count : Nat
deriving DecidableEq, Repr

def TooManyDigits.message (e : TooManyDigits) : String :=
  s!"Exceeds the limit ({digitLimit} digits) for integer string conversion: value has {e.count} "
    ++ "digits; use sys.set_int_max_str_digits() to increase the limit"

inductive ReadError (ε : Type) where
  | invalid (cause : ε)
  | tooManyDigits (e : TooManyDigits)
deriving DecidableEq, Repr

def ReadError.map {ε δ : Type} (f : ε → δ) : ReadError ε → ReadError δ
  | .invalid cause => .invalid (f cause)
  | .tooManyDigits e => .tooManyDigits e

end StackMachine
