import StackMachine.Text.Quoted
import StackMachine.Value.Basic

/-!
# Value literals

A literal is the name of a kind and, in parentheses, a number text of that kind. Blanks may stand
around each part. The text in parentheses reaches from the first opening parenthesis to the last
closing one and stays on one line.
-/

namespace StackMachine

namespace Value

open Text

inductive LiteralError where
  | shape (text : List Char)
  | unknownKind (tag : List Char)
  | malformed (kind : Kind) (literal : List Char)
  | notFinite (kind : Kind) (literal : List Char)
  | integerOutOfRange (kind : IntKind) (n : Int)
  | floatOutOfRange (literal : List Char)
deriving DecidableEq

def LiteralError.message : LiteralError → String
  | .shape text => "malformed value literal: " ++ quoted text
  | .unknownKind tag => "unknown value type: " ++ quoted tag
  | .malformed kind literal => s!"malformed {kind.name} literal: " ++ quoted literal
  | .notFinite kind literal => s!"{kind.name} literal must be finite: " ++ quoted literal
  | .integerOutOfRange kind n =>
    String.ofList (Kind.intText n) ++ s!" out of range for {kind.name}"
  | .floatOutOfRange literal => String.ofList literal ++ " out of range for float"

/-- Tag and number text of a literal. -/
structure LiteralParts where
  tag : List Char
  body : List Char
deriving DecidableEq

/-- The text between an opening parenthesis and a closing one at the end. -/
def insideParentheses? : List Char → Option (List Char)
  | '(' :: rest =>
    match rest.reverse with
    | ')' :: inner => some inner.reverse
    | _ => none
  | _ => none

def splitLiteral? (text : List Char) : Option LiteralParts :=
  let cs := trim text
  let tag := cs.takeWhile Char.isAlphanum
  match tag, insideParentheses? (trimLeft (cs.dropWhile Char.isAlphanum)) with
  | c :: _, some inner =>
    let body := trim inner
    if c.isAlpha && !body.contains '\n' then some ⟨tag, body⟩ else none
  | _, _ => none

/-- The largest float, in units of a double. -/
def largestFloat : Nat :=
  (Nat.pow 2 24 - 1) * Nat.pow 2 104 * Nat.pow 2 Format.double.scale

def readInteger (k : IntKind) (body : List Char) : Except (ReadError LiteralError) Value :=
  match Numeral.spanInteger? body with
  | none => .error (.invalid (.malformed (.integer k) body))
  | some (negative, ds) => do
    let n ← Numeral.intOfDigits negative ds
    if h : k.InRange n then return ofInt k n h else throw (.invalid (.integerOutOfRange k n))

/-- A float's text is read as a double, which must not exceed the largest float, and then rounded
once more. -/
def readFloating (k : FloatKind) (body : List Char) : Except LiteralError Value :=
  match Numeral.readFloating? body with
  | none => .error (.malformed (.floating k) body)
  | some t =>
    match Binary.ofNumberText .double t, k with
    | .finite negative units h, .double => .ok ⟨.floating .double, .finite negative units h⟩
    | .finite negative units h, .float =>
      if largestFloat < units then .error (.floatOutOfRange body)
      else .ok ⟨.floating .float, Binary.convert .single (.finite negative units h)⟩
    | _, _ => .error (.notFinite (.floating k) body)

def readDecimal (body : List Char) : Except LiteralError Value :=
  match Numeral.readDecimal? body with
  | none => .error (.malformed .bigdecimal body)
  | some (.numeral n) =>
    match Decimal.ofNumeral? n with
    | none => .error (.malformed .bigdecimal body)
    | some d => .ok ⟨.bigdecimal, d⟩
  | some _ => .error (.notFinite .bigdecimal body)

def parse (text : List Char) : Except (ReadError LiteralError) Value :=
  match splitLiteral? text with
  | none => .error (.invalid (.shape text))
  | some parts =>
    match Kind.ofName? (parts.tag.map Char.toLower) with
    | none => .error (.invalid (.unknownKind parts.tag))
    | some (.integer k) => readInteger k parts.body
    | some (.floating k) => (readFloating k parts.body).mapError .invalid
    | some .bigdecimal => (readDecimal parts.body).mapError .invalid

end Value

end StackMachine
