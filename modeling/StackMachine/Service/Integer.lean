import StackMachine.Service.Issue

/-!
# Integers in a request

An integer can be given as a number, as a truth value or as a string. A string is first taken as a
plain integer; if it is none, it is tidied and taken once more. Tidying removes spaces at the ends,
a plus sign, zeros in front, a fraction of zeros and single underscores.
-/

namespace StackMachine.Service

open Text

/-! ### Plain integers -/

/-- A minus sign at the start of a text, and the text after it. -/
def spanMinus : List Char → Bool × List Char
  | '-' :: cs => (true, cs)
  | cs => (false, cs)

/-- Whether a row of digits has a zero in front of other digits. -/
def hasLeadingZero : List Char → Bool
  | '0' :: _ :: _ => true
  | _ => false

/-- Reads a plain integer: ASCII digits without zeros in front, after an optional minus sign. There
must not be more than `digitLimit` digits, and what follows them is looked at only if there are
not. -/
def readPlain (cs : List Char) : Except Issue Int :=
  let (negative, body) := spanMinus cs
  let ds := body.takeWhile Char.isDigit
  let rest := body.dropWhile Char.isDigit
  if ds.isEmpty || hasLeadingZero ds then .error .unreadable
  else if digitLimit < ds.length then .error .tooLarge
  else if rest.isEmpty then .ok (signed negative (natOfDigits (spanDigits ds).1))
  else .error .unreadable

/-! ### Tidying -/

def isPositiveDigit (c : Char) : Bool :=
  '1' ≤ c && c ≤ '9'

/-- Drops zeros and underscores. The last of them, which is given first, is kept when nothing or a
point follows. Other than by these, they must be followed by a digit or a minus sign. -/
def dropZerosAfter : Char → List Char → Option (List Char)
  | last, [] => some [last]
  | last, c :: cs =>
    if c == '0' || c == '_' then dropZerosAfter c cs
    else if isPositiveDigit c || c == '-' then some (c :: cs)
    else if c == '.' then some (last :: c :: cs)
    else none

/-- Drops the zeros in front of a number, and the underscores among them. -/
def dropLeadingZeros : List Char → Option (List Char)
  | [] => none
  | c :: cs =>
    if c == '0' then dropZerosAfter c cs
    else if isPositiveDigit c || c == '-' then some (c :: cs)
    else none

/-- Drops the first point and what follows it, if that is a row of zeros. -/
def dropZeroFraction (cs : List Char) : List Char :=
  match cs.dropWhile (· ≠ '.') with
  | _ :: z :: zs => if (z :: zs).all (· == '0') then cs.takeWhile (· ≠ '.') else cs
  | _ => cs

/-- Drops underscores, each of which must stand alone between two other characters. -/
def dropUnderscores (inside : Bool) : List Char → Option (List Char)
  | [] => some []
  | ['_'] => none
  | '_' :: c :: cs =>
    if inside && c ≠ '_' then (dropUnderscores true cs).map (c :: ·) else none
  | c :: cs => (dropUnderscores true cs).map (c :: ·)

/-- Removes a plus sign, which must not stand in front of a minus sign. -/
def dropPlus : List Char → Option (List Char)
  | '+' :: '-' :: _ => none
  | '+' :: cs => some cs
  | cs => some cs

def tidy (cs : List Char) : Option (List Char) := do
  let (negative, body) := spanMinus (← dropPlus (trimSpace cs))
  let digits ← dropUnderscores false (dropZeroFraction (← dropLeadingZeros body))
  return if negative then '-' :: digits else digits

/-- Reads an integer in a string. Only a string that is plain from the start is said to be too
large. -/
def readText (s : String) : Except Issue Int :=
  match readPlain s.toList with
  | .error .unreadable =>
    match (tidy s.toList).map readPlain with
    | some (.ok n) => .ok n
    | _ => .error .unreadable
  | result => result

/-! ### All forms -/

/-- The integer that a double is. It must be less than `2^63` in magnitude. -/
def readFloating : Binary .double → Except Issue Int
  | .finite negative units _ =>
    let whole := units / Nat.pow 2 Format.double.scale
    if units % Nat.pow 2 Format.double.scale ≠ 0 then .error .fractional
    else if Nat.pow 2 63 ≤ whole then .error .tooLarge
    else .ok (signed negative whole)
  | _ => .error .notFinite

def readInt : Json → Except Issue Int
  | .bool b => .ok (if b then 1 else 0)
  | .integer n => .ok n
  | .floating x => readFloating x
  | .string s => readText s
  | _ => .error .notInteger

/-- An integer above zero. -/
@[ext] structure Positive where
  val : Nat
  pos : 0 < val

instance : DecidableEq Positive :=
  fun m n => decidable_of_iff (m.val = n.val) Positive.ext_iff.symm

def readPositive (j : Json) : Except Issue Positive :=
  match readInt j with
  | .error issue => .error issue
  | .ok n => if h : 0 < n then .ok ⟨n.toNat, by omega⟩ else .error .notPositive

end StackMachine.Service
