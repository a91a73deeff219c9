import StackMachine.Command.Execution

/-!
# The command line

Reads the files that the arguments name and writes what the command has to say.
-/

namespace StackMachine.Command

/-- The contents of a file, or nothing if it cannot be read. -/
def readSourceFile (name : String) : IO (Option (List UInt8)) := do
  try
    let bytes ← IO.FS.readBinFile name
    return some bytes.toList
  catch _ =>
    return none

/-- The contents of the files among the arguments. Reading the others finds nothing. -/
def readArguments (args : List String) : IO (List (String × List UInt8)) := do
  let mut files := []
  for arg in args do
    if let some bytes ← readSourceFile arg then
      files := (arg, bytes) :: files
  return files

def usage : String :=
  "usage: [-v] run [-b N] [--interleave] [-j] FILE... | check [-j] FILE... | disasm FILE"

end StackMachine.Command

open StackMachine.Command

def main (args : List String) : IO UInt32 := do
  let files ← readArguments args
  match commandLine .plain (fun name => files.lookup name) args with
  | .usageError =>
    IO.eprintln usage
    return 2
  | .tooManyDigits e =>
    IO.eprintln e.message
    return 1
  | .output o =>
    IO.print o.stdout
    IO.eprint o.stderr
    return UInt32.ofNat o.exit
