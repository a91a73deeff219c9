import StackMachine.Json.Basic

/-!
# Reading JSON

The value that a JSON text denotes. A string is read in two steps: first the numbers of its
characters and of the units that escapes stand for, then the characters, where two units of
sixteen bits may make one.
-/

namespace StackMachine.Json

def isSpace (c : Char) : Bool :=
  c == ' ' || c == '\t' || c == '\n' || c == '\r'

def skipSpace (cs : List Char) : List Char :=
  cs.dropWhile isSpace

/-! ### Strings -/

def hexValue? (c : Char) : Option Nat :=
  if '0' ≤ c ∧ c ≤ '9' then some (c.toNat - '0'.toNat)
  else if 'a' ≤ c ∧ c ≤ 'f' then some (c.toNat - 'a'.toNat + 10)
  else if 'A' ≤ c ∧ c ≤ 'F' then some (c.toNat - 'A'.toNat + 10)
  else none

/-- The unit that four hexadecimal digits stand for. -/
def unit? (a b c d : Char) : Option Nat := do
  let high := 16 * (← hexValue? a) + (← hexValue? b)
  let low := 16 * (← hexValue? c) + (← hexValue? d)
  return 256 * high + low

/-- The character that a letter after a backslash stands for. -/
def shortEscape? : Char → Option Char
  | '"' => some '"'
  | '\\' => some '\\'
  | '/' => some '/'
  | 'b' => some '\x08'
  | 'f' => some '\x0c'
  | 'n' => some '\n'
  | 'r' => some '\r'
  | 't' => some '\t'
  | _ => none

/-- The units of a string up to its closing mark, and the text after it. -/
def spanUnits? : List Char → Option (List Nat × List Char)
  | [] => none
  | '"' :: cs => some ([], cs)
  | '\\' :: 'u' :: a :: b :: c :: d :: cs => do
    let u ← unit? a b c d
    let (us, rest) ← spanUnits? cs
    return (u :: us, rest)
  | '\\' :: c :: cs => do
    let e ← shortEscape? c
    let (us, rest) ← spanUnits? cs
    return (e.toNat :: us, rest)
  | c :: cs => do
    let (us, rest) ← spanUnits? cs
    if c < ' ' then none else return (c.toNat :: us, rest)

def isHighUnit (u : Nat) : Bool := 0xD800 ≤ u && u < 0xDC00

def isLowUnit (u : Nat) : Bool := 0xDC00 ≤ u && u < 0xE000

/-- The characters of units. Half of a pair alone is no character. -/
def charsOfUnits? : List Nat → Option (List Char)
  | [] => some []
  | [u] => if isHighUnit u || isLowUnit u then none else some [Char.ofNat u]
  | u :: v :: us =>
    if isHighUnit u then
      if isLowUnit v then
        let c := Char.ofNat (0x10000 + (u - 0xD800) * 0x400 + (v - 0xDC00))
        (charsOfUnits? us).map (c :: ·)
      else none
    else if isLowUnit u then none
    else (charsOfUnits? (v :: us)).map (Char.ofNat u :: ·)

/-- Reads a string behind its opening mark. -/
def readString? (cs : List Char) : Option (String × List Char) := do
  let (us, rest) ← spanUnits? cs
  return (String.ofList (← charsOfUnits? us), rest)

/-! ### Numbers -/

def isNumberChar (c : Char) : Bool :=
  c.isDigit || c == '-' || c == '+' || c == '.' || c == 'e' || c == 'E'

/-- Whether the digits before the point of a number are as they should be: at least one, and no
zero in front of others. -/
def wellBegun (cs : List Char) : Bool :=
  match cs with
  | '0' :: c :: _ => !c.isDigit
  | c :: _ => c.isDigit
  | [] => false

/-- Whether a digit follows the point of a number, if it has one. -/
def wellPointed (cs : List Char) : Bool :=
  match cs.dropWhile Char.isDigit with
  | '.' :: c :: _ => c.isDigit
  | ['.'] => false
  | _ => true

/-- Reads a number that takes up the whole text. -/
def numberOf? (cs : List Char) : Option Json :=
  let (negative, body) := match cs with
    | '-' :: body => (true, body)
    | _ => (false, cs)
  if !wellBegun body || !wellPointed body then none
  else if body.all Char.isDigit then
    some (.integer (signed negative (Text.natOfDigits (Text.spanDigits body).1)))
  else
    (Numeral.read? cs).map fun n => .floating (.ofNumberText .double (.numeral n))

def readNumber? (cs : List Char) : Option (Json × List Char) :=
  (numberOf? (cs.takeWhile isNumberChar)).map (·, cs.dropWhile isNumberChar)

/-! ### Values -/

mutual

/-- Reads a value. The first argument bounds the depth of the recursion. -/
def readValue? : Nat → List Char → Option (Json × List Char)
  | 0, _ => none
  | depth + 1, cs =>
    match skipSpace cs with
    | 'n' :: 'u' :: 'l' :: 'l' :: cs => some (.null, cs)
    | 't' :: 'r' :: 'u' :: 'e' :: cs => some (.bool true, cs)
    | 'f' :: 'a' :: 'l' :: 's' :: 'e' :: cs => some (.bool false, cs)
    | '"' :: cs => (readString? cs).map fun (s, rest) => (.string s, rest)
    | '[' :: cs =>
      match skipSpace cs with
      | ']' :: rest => some (.array [], rest)
      | cs => (readItems? depth cs).map fun (items, rest) => (.array items, rest)
    | '\x7b' :: cs =>
      match skipSpace cs with
      | '\x7d' :: rest => some (.object [], rest)
      | cs => (readFields? depth cs).map fun (fields, rest) => (.object fields, rest)
    | cs => readNumber? cs

/-- Reads the items of an array up to its closing bracket. -/
def readItems? : Nat → List Char → Option (List Json × List Char)
  | 0, _ => none
  | depth + 1, cs => do
    let (item, rest) ← readValue? depth cs
    match skipSpace rest with
    | ']' :: rest => return ([item], rest)
    | ',' :: rest =>
      let (items, rest) ← readItems? depth rest
      return (item :: items, rest)
    | _ => none

/-- Reads the fields of an object up to its closing bracket. -/
def readFields? : Nat → List Char → Option (List (String × Json) × List Char)
  | 0, _ => none
  | depth + 1, cs =>
    match skipSpace cs with
    | '"' :: cs => do
      let (name, rest) ← readString? cs
      match skipSpace rest with
      | ':' :: rest =>
        let (value, rest) ← readValue? depth rest
        match skipSpace rest with
        | '\x7d' :: rest => return ([(name, value)], rest)
        | ',' :: rest =>
          let (fields, rest) ← readFields? depth rest
          return ((name, value) :: fields, rest)
        | _ => none
      | _ => none
    | _ => none

end

/-- The value that a text denotes. Every second step of the recursion takes a character at least,
so twice the length of the text bounds its depth. -/
def read? (text : String) : Option Json := do
  let cs := text.toList
  let (j, rest) ← readValue? (2 * cs.length + 1) cs
  if (skipSpace rest).isEmpty then some j else none

end StackMachine.Json
