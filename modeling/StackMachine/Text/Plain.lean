/-!
# Plain text

A stream that is no terminal is sent a text without the control sequences by which a terminal changes
colours and moves its cursor. Which sequences these are is up to whoever writes to the stream: a
`Screen` is any way to leave them out that touches no text without an escape character. `Screen.plain`
is one. Its sequences are an escape character and an opening bracket, then any number of parameter
characters, any number of intermediate characters, and one final character.
-/

namespace StackMachine.Text

/-- Digits and the signs that separate or mark parameters. -/
def isParameter (c : Char) : Bool :=
  '0' ≤ c && c ≤ '?'

/-- The space and the punctuation before the digits. -/
def isIntermediate (c : Char) : Bool :=
  ' ' ≤ c && c ≤ '/'

/-- The letters and the signs among and after them. -/
def isFinal (c : Char) : Bool :=
  '@' ≤ c && c ≤ '~'

/-- The length of the control sequence that a text starts with, or zero. -/
def sequenceLength : List Char → Nat
  | '\x1b' :: '[' :: cs =>
    let parameters := cs.takeWhile isParameter
    let afterParameters := cs.dropWhile isParameter
    let intermediates := afterParameters.takeWhile isIntermediate
    match afterParameters.dropWhile isIntermediate with
    | c :: _ => if isFinal c then parameters.length + intermediates.length + 3 else 0
    | [] => 0
  | _ => 0

/-- Skips a number of characters, and from there on all control sequences. -/
def plainAfter : Nat → List Char → List Char
  | _, [] => []
  | skip + 1, _ :: cs => plainAfter skip cs
  | 0, c :: cs =>
    match sequenceLength (c :: cs) with
    | 0 => c :: plainAfter 0 cs
    | skip + 1 => plainAfter skip cs

theorem sequenceLength_of_ne {c : Char} (h : c ≠ '\x1b') (cs : List Char) :
    sequenceLength (c :: cs) = 0 := by
  unfold sequenceLength
  split
  · next heq => exact absurd (List.cons.inj heq).1 h
  · rfl

theorem plainAfter_eq_self {cs : List Char} (h : '\x1b' ∉ cs) : plainAfter 0 cs = cs := by
  induction cs with
  | nil => rfl
  | cons c cs ih =>
    obtain ⟨hne, hrest⟩ : '\x1b' ≠ c ∧ '\x1b' ∉ cs := by simpa using h
    rw [plainAfter, sequenceLength_of_ne (Ne.symm hne)]
    exact congrArg (c :: ·) (ih hrest)

/-- What is sent of a text to a stream that is no terminal. Control sequences start with the escape
character, so a text without one is sent as it is. -/
structure Screen where
  sent : String → String
  sent_eq_self : ∀ s, '\x1b' ∉ s.toList → sent s = s

/-- Leaves out the control sequences described above. -/
def Screen.plain : Screen where
  sent s := String.ofList (plainAfter 0 s.toList)
  sent_eq_self s h := by rw [plainAfter_eq_self h, String.ofList_toList]

end StackMachine.Text
