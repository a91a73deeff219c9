/-!
# UTF-8

Text from bytes. The first byte of a character fixes how many bytes follow and which values the
second one may take; this excludes overlong forms, surrogates and codes beyond the last character.
A sequence is refused at the first byte that no character allows.
-/

namespace StackMachine.Text.Utf8

inductive Reason where
  | startByte
  | continuationByte
  | endOfData
deriving DecidableEq, Repr

def Reason.message : Reason → String
  | .startByte => "invalid start byte"
  | .continuationByte => "invalid continuation byte"
  | .endOfData => "unexpected end of data"

/-- Where the first refused sequence starts, counted in bytes, and what is wrong with it. -/
structure Malformed where
  offset : Nat
  reason : Reason
deriving DecidableEq, Repr

/-- A character of which some bytes have been read: where it started, how many bytes it still
needs, the range of the next one, and the bits collected so far. -/
structure Pending where
  start : Nat
  needed : Nat
  low : Nat
  high : Nat
  bits : Nat
deriving DecidableEq, Repr

/-- The character that a byte beyond the ASCII range opens, if it may open one. -/
def Pending.opened? (start byte : Nat) : Option Pending :=
  if byte < 0xC2 then none
  else if byte < 0xE0 then some ⟨start, 1, 0x80, 0xBF, byte - 0xC0⟩
  -- a second byte below `0xA0` would spell a character that two bytes are enough for
  else if byte = 0xE0 then some ⟨start, 2, 0xA0, 0xBF, 0⟩
  -- a second byte above `0x9F` would spell a surrogate
  else if byte = 0xED then some ⟨start, 2, 0x80, 0x9F, 0xD⟩
  else if byte < 0xF0 then some ⟨start, 2, 0x80, 0xBF, byte - 0xE0⟩
  -- a second byte below `0x90` would spell a character that three bytes are enough for
  else if byte = 0xF0 then some ⟨start, 3, 0x90, 0xBF, 0⟩
  -- a second byte above `0x8F` would go beyond the last character
  else if byte = 0xF4 then some ⟨start, 3, 0x80, 0x8F, 4⟩
  else if byte < 0xF4 then some ⟨start, 3, 0x80, 0xBF, byte - 0xF0⟩
  else none

def decodeFrom : Nat → Option Pending → List UInt8 → Except Malformed (List Char)
  | _, none, [] => .ok []
  | _, some p, [] => .error ⟨p.start, .endOfData⟩
  | i, none, b :: bs =>
    if b.toNat < 0x80 then do
      return Char.ofNat b.toNat :: (← decodeFrom (i + 1) none bs)
    else
      match Pending.opened? i b.toNat with
      | none => .error ⟨i, .startByte⟩
      | some p => decodeFrom (i + 1) (some p) bs
  | i, some p, b :: bs =>
    if p.low ≤ b.toNat ∧ b.toNat ≤ p.high then
      let bits := 64 * p.bits + b.toNat % 64
      if p.needed ≤ 1 then do
        return Char.ofNat bits :: (← decodeFrom (i + 1) none bs)
      else
        decodeFrom (i + 1) (some ⟨p.start, p.needed - 1, 0x80, 0xBF, bits⟩) bs
    else
      .error ⟨p.start, .continuationByte⟩

def decode (bytes : List UInt8) : Except Malformed (List Char) :=
  decodeFrom 0 none bytes

end StackMachine.Text.Utf8
