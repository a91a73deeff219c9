/-!
# Command-line arguments

Arguments that start with a hyphen are options. A long option is written out, with its value after
an equals sign or as the next argument; short options may be joined after one hyphen, and the
first of them that takes a value takes the rest of the argument, or else the next argument. Two
hyphens alone end the options.
-/

namespace StackMachine.Command

/-- An option that a command knows. -/
structure Switch where
  long : String
  short : Option Char
  takesValue : Bool
deriving DecidableEq, Repr

/-- An occurrence of an option, known by its long name. -/
structure Setting where
  long : String
  value : Option String
deriving DecidableEq, Repr

/-- The options and the other arguments of a command, each in order. -/
structure Arguments where
  settings : List Setting
  operands : List String
deriving DecidableEq, Repr

/-- What one argument with options says: all of it, or all but the value of its last option, which
is the next argument. -/
inductive Reading where
  | complete (settings : List Setting)
  | awaiting (settings : List Setting) (long : String)
deriving DecidableEq, Repr

namespace Reading

def cons (s : Setting) : Reading → Reading
  | .complete settings => .complete (s :: settings)
  | .awaiting settings long => .awaiting (s :: settings) long

end Reading

def isOption (arg : String) : Bool :=
  match arg.toList with
  | '-' :: _ :: _ => true
  | _ => false

/-- Reads the letters after a single hyphen. -/
def readShort (switches : List Switch) : List Char → Option Reading
  | [] => some (.complete [])
  | c :: cs =>
    match switches.find? (·.short = some c) with
    | none => none
    | some switch =>
      if switch.takesValue then
        if cs.isEmpty then some (.awaiting [] switch.long)
        else some (.complete [⟨switch.long, some (String.ofList cs)⟩])
      else (readShort switches cs).map (.cons ⟨switch.long, none⟩)

/-- Reads an option by its long name; a flag takes no value. -/
def readLong (switch : Switch) (value : Option String) : Option Reading :=
  match switch.takesValue, value with
  | true, some v => some (.complete [⟨switch.long, some v⟩])
  | true, none => some (.awaiting [] switch.long)
  | false, some _ => none
  | false, none => some (.complete [⟨switch.long, none⟩])

/-- The text after the first equals sign, if there is one. -/
def valueAfterEquals (arg : List Char) : Option String :=
  match arg.dropWhile (· ≠ '=') with
  | _ :: cs => some (String.ofList cs)
  | [] => none

def readOption (switches : List Switch) (arg : String) : Option Reading :=
  let cs := arg.toList
  let name := cs.takeWhile (· ≠ '=')
  match switches.find? (·.long.toList = name) with
  | some switch => readLong switch (valueAfterEquals cs)
  | none =>
    match cs with
    | '-' :: '-' :: _ => none
    | _ => readShort switches (cs.drop 1)

namespace Arguments

def add (settings : List Setting) (a : Arguments) : Arguments :=
  { a with settings := settings ++ a.settings }

def addOperand (arg : String) (a : Arguments) : Arguments :=
  { a with operands := arg :: a.operands }

/-- Reads all arguments. Unless options may be `mixed` with other arguments, the first other
argument ends them. -/
def read (switches : List Switch) (mixed : Bool) : List String → Option Arguments
  | [] => some ⟨[], []⟩
  | arg :: args =>
    if arg = "--" then some ⟨[], args⟩
    else if isOption arg then
      match readOption switches arg, args with
      | none, _ => none
      | some (.complete settings), args => (read switches mixed args).map (·.add settings)
      | some (.awaiting _ _), [] => none
      | some (.awaiting settings long), value :: args =>
        (read switches mixed args).map (·.add (settings ++ [⟨long, some value⟩]))
    else if mixed then (read switches mixed args).map (·.addOperand arg)
    else some ⟨[], arg :: args⟩

def isSet (a : Arguments) (switch : Switch) : Bool :=
  a.settings.any (·.long == switch.long)

/-- The value of the last occurrence of an option. -/
def lastValue? (a : Arguments) (switch : Switch) : Option String :=
  (a.settings.filter (·.long == switch.long)).getLast?.bind (·.value)

end Arguments

end StackMachine.Command
