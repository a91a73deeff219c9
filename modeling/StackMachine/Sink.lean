/-!
# Text sinks

Where processes write. A sink keeps everything written to it; a closed sink keeps its text and
takes no more.
-/

namespace StackMachine

structure Sink where
  text : String := ""
  isOpen : Bool := true
deriving DecidableEq, Repr

namespace Sink

def empty : Sink := {}

def close (s : Sink) : Sink :=
  { s with isOpen := false }

def write? (s : Sink) (piece : String) : Option Sink :=
  if s.isOpen then some { s with text := s.text ++ piece } else none

end Sink

end StackMachine
