import StackMachine.Json.Basic
import StackMachine.Text.Quoted

/-!
# JSON text

The text of a JSON value with an indentation of two blanks a level and ASCII characters only.
-/

namespace StackMachine.Json

def escapeUnit (n : Nat) : List Char :=
  ['\\', 'u'] ++ Text.hex 4 n

/-- A character beyond the first 65536 is written as two units of sixteen bits. -/
def escapeByUnits (c : Char) : List Char :=
  if c.toNat < 0x10000 then escapeUnit c.toNat
  else
    let rest := c.toNat - 0x10000
    escapeUnit (0xD800 + rest / 0x400) ++ escapeUnit (0xDC00 + rest % 0x400)

def escape (c : Char) : List Char :=
  if c = '"' ∨ c = '\\' then ['\\', c]
  else if c = '\n' then ['\\', 'n']
  else if c = '\r' then ['\\', 'r']
  else if c = '\t' then ['\\', 't']
  else if c = '\x08' then ['\\', 'b']
  else if c = '\x0c' then ['\\', 'f']
  else if ' ' ≤ c ∧ c ≤ '~' then [c]
  else escapeByUnits c

def stringText (s : String) : String :=
  String.ofList ('"' :: s.toList.flatMap escape ++ ['"'])

/-- The start of a new line at the given level. -/
def newline (level : Nat) : String :=
  String.ofList ('\n' :: List.replicate (2 * level) ' ')

/-- Items one below the other between two brackets. -/
def enclosed (left right : String) (level : Nat) (items : List String) : String :=
  if items.isEmpty then left ++ right
  else
    left ++ ",".intercalate (items.map (newline (level + 1) ++ ·)) ++ newline level ++ right

mutual

def render (level : Nat) : Json → String
  | .null => "null"
  | .bool b => if b then "true" else "false"
  | .integer n => String.ofList (Kind.intText n)
  | .floating x => String.ofList (x.text FloatKind.double.layout)
  | .string s => stringText s
  | .array items => enclosed "[" "]" level (renderItems (level + 1) items)
  | .object fields => enclosed "\x7b" "\x7d" level (renderFields (level + 1) fields)

def renderItems (level : Nat) : List Json → List String
  | [] => []
  | item :: items => render level item :: renderItems level items

def renderFields (level : Nat) : List (String × Json) → List String
  | [] => []
  | (name, value) :: fields =>
    (stringText name ++ ": " ++ render level value) :: renderFields level fields

end

def text (j : Json) : String :=
  j.render 0

end StackMachine.Json
