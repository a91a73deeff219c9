import StackMachine.ReadError
import StackMachine.Text.Blank
import StackMachine.Text.Digit

/-!
# Numerals

The texts that denote numbers. A numeral is an optional sign, digits with an optional point, and
an optional exponent; its digits may come from any script. Around this common form the number
kinds differ in where underscores may stand and in the words for the numbers that are not finite.
-/

namespace StackMachine

open Text

/-- The number `± coefficient · 10^exponent`. The sign is kept for zero too. -/
structure Numeral where
  negative : Bool
  coefficient : Nat
  exponent : Int
deriving DecidableEq, Repr

/-- What stands for no number. It has a sign and may carry digits, and it is quiet or signalling:
a signalling one may neither be computed with nor compared. -/
structure NaN where
  negative : Bool := false
  signalling : Bool := false
  payload : Nat := 0
deriving DecidableEq, Repr

/-- What a number text denotes. -/
inductive NumberText where
  | numeral (n : Numeral)
  | infinity (negative : Bool)
  | nan (n : NaN)
deriving DecidableEq, Repr

/-- `n` with a sign. -/
def signed (negative : Bool) (n : Nat) : Int :=
  if negative then -(n : Int) else n

namespace Numeral

def spanSign : List Char → Bool × List Char
  | '-' :: cs => (true, cs)
  | '+' :: cs => (false, cs)
  | cs => (false, cs)

/-- The exponent at the end of a numeral; an empty rest stands for the exponent zero. -/
def readExponent? : List Char → Option Int
  | [] => some 0
  | c :: cs =>
    if c = 'e' ∨ c = 'E' then
      let (negative, cs) := spanSign cs
      match spanDigits cs with
      | (d :: ds, []) => some (signed negative (natOfDigits (d :: ds)))
      | _ => none
    else none

/-- The digits after a point, if the rest starts with one. -/
def spanFraction : List Char → List Nat × List Char
  | '.' :: cs => spanDigits cs
  | cs => ([], cs)

/-- Reads a numeral that takes up the whole text. At least one digit stands beside the point. -/
def read? (cs : List Char) : Option Numeral :=
  let (negative, cs) := spanSign cs
  let (whole, cs) := spanDigits cs
  let (fraction, cs) := spanFraction cs
  if whole.isEmpty && fraction.isEmpty then none
  else
    (readExponent? cs).map fun e =>
      ⟨negative, natOfDigits (whole ++ fraction), e - fraction.length⟩

/-- Drops the underscores of a text in which each stands between two digits. -/
def joinGroups? (afterDigit : Bool) : List Char → Option (List Char)
  | [] => some []
  | ['_'] => none
  | '_' :: c :: cs =>
    if afterDigit && isDigit c then (joinGroups? true cs).map (c :: ·) else none
  | c :: cs => (joinGroups? (isDigit c) cs).map (c :: ·)

/-- Whether a text spells a word of lower-case ASCII letters, in either case. -/
def spells (word : String) (cs : List Char) : Bool :=
  cs.map Char.toLower == word.toList

def spellsInfinity (cs : List Char) : Bool :=
  spells "inf" cs || spells "infinity" cs

/-- The digits behind the given word, if a text is that word followed by digits only. -/
def payload? (word : String) (cs : List Char) : Option (List Nat) :=
  match spells word (cs.take word.length), spanDigits (cs.drop word.length) with
  | true, (ds, []) => some ds
  | _, _ => none

/-- Reads what stands for no number, in either of its two spellings. -/
def readNaN? (negative : Bool) (cs : List Char) : Option NaN :=
  match payload? "nan" cs, payload? "snan" cs with
  | some ds, _ => some { negative, payload := natOfDigits ds }
  | none, some ds => some { negative, signalling := true, payload := natOfDigits ds }
  | none, none => none

/-- Reads the text of a binary floating-point number. -/
def readFloating? (cs : List Char) : Option NumberText :=
  let (negative, body) := spanSign cs
  if spellsInfinity body then some (.infinity negative)
  else if spells "nan" body then some (.nan { negative })
  else ((joinGroups? false cs).bind read?).map .numeral

/-- Reads the text of a decimal number. Underscores count for nothing wherever they stand, and a
number that is none may carry digits. -/
def readDecimal? (cs : List Char) : Option NumberText :=
  let cs := cs.filter (· ≠ '_')
  let (negative, body) := spanSign cs
  if spellsInfinity body then some (.infinity negative)
  else
    match readNaN? negative body with
    | some n => some (.nan n)
    | none => (read? cs).map .numeral

/-- The sign and digits of a text that consists of nothing else. -/
def spanInteger? (cs : List Char) : Option (Bool × List Nat) :=
  let (negative, cs) := spanSign cs
  match spanDigits cs with
  | (d :: ds, []) => some (negative, d :: ds)
  | _ => none

/-- The integer that a row of digits denotes, unless the row is too long. -/
def intOfDigits {ε : Type} (negative : Bool) (ds : List Nat) : Except (ReadError ε) Int :=
  if digitLimit < ds.length then .error (.tooManyDigits ⟨ds.length⟩)
  else .ok (signed negative (natOfDigits ds))

/-- Reads an integer as a person types it: spaces around it and underscores between its digits
are allowed. -/
def readTypedInteger? (cs : List Char) : Option Int := do
  let (negative, ds) ← spanInteger? (← joinGroups? false (trimSpace cs))
  if digitLimit < ds.length then none else some (signed negative (natOfDigits ds))

end Numeral

end StackMachine
