import Mathlib
import StackMachine.Proofs.PlainNumbers
import StackMachine.Proofs.Signals

/-!
# Arithmetic from partial operations

Arithmetic on values is a total function. Here it is built a second time from operations that are
not defined everywhere: a value is constructed from a number that may not fit its kind, a promotion
may turn out to be narrowing, there is no quotient by zero, no remainder of two floats, no comparison
of a decimal that signals, and no text of an integer that is too long. Where one of them is not
defined, arithmetic crashes. The tests that come before them are the only protection, and on values
that do not signal they suffice: the two arithmetics agree there.

* **`Undefined`**: the operations that can be undefined.
* **`Value.attemptPromote_eq`**: promotion never crashes.
* **`Value.attemptEquals_eq`**, **`Value.attemptApply_eq`**: on values that do not signal, neither do
  equality and arithmetic.
-/

namespace StackMachine

/-- An operation was not defined for what it was given. -/
inductive Undefined where
  | conversion (e : Value.ConversionError)
  | narrowing (e : Value.Narrowing)
  /-- The number is not of the sort that the kind calls for. -/
  | foreignNumber (k : Kind)
  | noOperation (op : Operation) (k : Kind)
  | zeroDivision
  /-- A decimal that signals was compared. -/
  | signal
  /-- The integer has too many digits to be written in a message. -/
  | unwritable (n : Int)
  | stackIndex (depth : Nat)
  | registerIndex (index : Nat)
  | noCharacter (code : Int)
  | noInstruction (ip : Nat)
  | sinkClosed
deriving DecidableEq

/-! ## Promotion -/

namespace Value

/-- Construction of a value, which may not be possible. -/
def attemptConstruct (k : Kind) (number : Number) : Except Undefined Value :=
  (ofNumber k number).mapError .conversion

/-- Promotion by construction. A value of the kind itself is not constructed again. -/
def attemptPromote (v : Value) (k : Kind) : Except Undefined Value :=
  if k.rank < v.kind.rank then .error (.narrowing ⟨v, k⟩)
  else if v.kind = k then .ok v
  else attemptConstruct k v.plain

/-- The plain numbers of two values in the higher of their kinds. -/
def attemptCoerce (a b : Value) : Except Undefined (Kind × Number × Number) := do
  let k := if b.kind.rank ≤ a.kind.rank then a.kind else b.kind
  let left ← a.attemptPromote k
  let right ← b.attemptPromote k
  return (k, left.plain, right.plain)

/-- A value can be constructed again from its own number. -/
theorem attemptConstruct_plain (v : Value) : attemptConstruct v.kind v.plain = .ok v := by
  rw [attemptConstruct, ofNumber_plain_self]
  rfl

/-- Promotion to a kind of no lower rank does not crash, and gives the widened number. -/
theorem attemptPromote_eq (v : Value) {k : Kind} (h : v.kind ≤ k) :
    v.attemptPromote k = .ok ⟨k, v.widen k h⟩ := by
  have hrank : ¬k.rank < v.kind.rank := Nat.not_lt.mpr h
  rw [attemptPromote, if_neg hrank]
  by_cases hk : v.kind = k
  · subst hk
    rw [if_pos rfl, widen_self]
  · rw [if_neg hk, attemptConstruct, ofNumber_plain v k h]
    rfl

/-- Two values can always be brought to the higher of their kinds. -/
theorem attemptCoerce_eq (a b : Value) :
    a.attemptCoerce b = .ok (a.kind.join b.kind,
      plain ⟨_, a.widen _ (kind_le_join_left a b)⟩, plain ⟨_, b.widen _ (kind_le_join_right a b)⟩) := by
  show (do
    let left ← a.attemptPromote (a.kind.join b.kind)
    let right ← b.attemptPromote (a.kind.join b.kind)
    return (a.kind.join b.kind, left.plain, right.plain)) = _
  rw [attemptPromote_eq a (kind_le_join_left a b), attemptPromote_eq b (kind_le_join_right a b)]
  rfl

end Value

/-! ## Comparisons of plain numbers -/

namespace Number

def signals : Number → Bool
  | .decimal d => d.signals
  | _ => false

def isZero : Number → Bool
  | .integer n => n == 0
  | .floating x => x.isZero
  | .decimal d => d.isZero

/-- The comparison with zero. -/
def attemptIsZero (n : Number) : Except Undefined Bool :=
  if n.signals then throw .signal else return n.isZero

/-- Equality of two numbers of one sort. -/
def numEq? : Number → Number → Option Bool
  | .integer m, .integer n => some (m == n)
  | .floating x, .floating y => some (x.numEq y)
  | .decimal d, .decimal e => some (d.numEq e)
  | _, _ => none

end Number

namespace Format.Embeds

variable {fmt wide : Format}

theorem isZero_convert (h : Embeds fmt wide) (x : Binary fmt) :
    (Binary.convert wide x).isZero = x.isZero := by
  cases x with
  | nan => rfl
  | infinity negative => rfl
  | finite negative u hu =>
    rw [h.convert_finite, Binary.isZero, Binary.isZero, Bool.eq_iff_iff]
    simp

/-- Comparison in the wider format gives the same answer, as both numbers are scaled alike. -/
theorem numEq_convert (h : Embeds fmt wide) (x y : Binary fmt) :
    (Binary.convert wide x).numEq (Binary.convert wide y) = x.numEq y := by
  cases x with
  | nan => rfl
  | infinity s =>
    cases y with
    | nan => rfl
    | infinity t => rfl
    | finite t v hv => rw [h.convert_finite]; rfl
  | finite s u hu =>
    rw [h.convert_finite]
    cases y with
    | nan => rfl
    | infinity t => rfl
    | finite t v hv =>
      rw [h.convert_finite, Binary.numEq, Binary.numEq, Bool.eq_iff_iff]
      simp

end Format.Embeds

theorem Format.double_embeds_double : Format.Embeds .double .double :=
  ⟨Nat.le_refl _, Nat.le_refl _, Nat.le_refl _⟩

theorem FloatKind.embeds : (k : FloatKind) → Format.Embeds k.format .double
  | .float => Format.single_embeds_double
  | .double => Format.double_embeds_double

namespace Value

theorem signals_plain : (v : Value) → v.plain.signals = v.signals
  | ⟨.integer _, _⟩ => rfl
  | ⟨.floating _, _⟩ => rfl
  | ⟨.bigdecimal, _⟩ => rfl

theorem isZero_plain : (v : Value) → v.plain.isZero = v.isZero
  | ⟨.integer _, _⟩ => rfl
  | ⟨.floating k, x⟩ => k.embeds.isZero_convert x
  | ⟨.bigdecimal, _⟩ => rfl

/-- Two numbers of one kind are of one sort, so they can be compared, and floats are compared as
doubles without loss. -/
theorem numEq?_plain : (k : Kind) → (x y : k.Number) →
    (plain ⟨k, x⟩).numEq? (plain ⟨k, y⟩) = some (k.numEq x y)
  | .integer _, _, _ => rfl
  | .floating k, x, y => congrArg some (k.embeds.numEq_convert x y)
  | .bigdecimal, _, _ => rfl

/-- Equality by comparison of the promoted numbers. -/
def attemptEquals (a b : Value) : Except Undefined Bool := do
  let (k, left, right) ← a.attemptCoerce b
  if left.signals || right.signals then throw .signal
  else
    match left.numEq? right with
    | some answer => return answer
    | none => throw (.foreignNumber k)

/-- **Equality does not crash** on values that do not signal. Both are promoted, and their plain
numbers are of one sort. -/
theorem attemptEquals_eq {a b : Value} (ha : a.signals = false) (hb : b.signals = false) :
    a.attemptEquals b = .ok (a.numEq b) := by
  have hleft : (plain ⟨_, a.widen _ (kind_le_join_left a b)⟩).signals = false := by
    rw [signals_plain]
    exact (signals_widen a _ _).trans ha
  have hright : (plain ⟨_, b.widen _ (kind_le_join_right a b)⟩).signals = false := by
    rw [signals_plain]
    exact (signals_widen b _ _).trans hb
  rw [attemptEquals, attemptCoerce_eq]
  show (if Number.signals _ || Number.signals _ then _
    else match Number.numEq? _ _ with | some answer => _ | none => _) = _
  rw [hleft, hright, numEq?_plain]
  rfl

end Value

/-! ## Arithmetic -/

namespace Operation

/-- **The quotient of the magnitudes with its sign put back is the quotient cut towards zero.**
One case for each pair of signs. -/
theorem quotient_eq_tdiv (x y : Int) : quotient x y = x.tdiv y := by
  have hpos (n : Nat) : decide (0 ≤ Int.ofNat n) = true := decide_eq_true (Int.natCast_nonneg n)
  have hneg (n : Nat) : decide (0 ≤ Int.negSucc n) = false :=
    decide_eq_false (Int.not_le.mpr (Int.negSucc_lt_zero n))
  cases x <;> cases y <;> simp only [quotient, hpos, hneg] <;> rfl

theorem onInt_div (x y : Int) : onInt .div x y = x.tdiv y :=
  quotient_eq_tdiv x y

/-- What it leaves over has the sign of the dividend: it is the dividend less the divisor times
the cut quotient. -/
theorem onInt_mod (x y : Int) : onInt .mod x y = x.tmod y := by
  rw [onInt, remainder, quotient_eq_tdiv, Int.tmod_def]

/-- The operation on integers, where it is defined. -/
def attemptOnInt (op : Operation) (x y : Int) : Except Undefined Int :=
  if op.divides && y == 0 then .error .zeroDivision else .ok (op.onInt x y)

/-- The operations that floats have. -/
def onBinary? (fmt : Format) : Operation → Option (Binary fmt → Binary fmt → Binary fmt)
  | .add => some Binary.add
  | .sub => some Binary.sub
  | .mul => some Binary.mul
  | .div => some Binary.div
  | .mod => none

/-- The operations that decimals have, with their contexts. -/
def onDecimal? : Operation → Option (Decimal → Decimal → Except Decimal.Trapped Decimal)
  | .add => some fun d e => Decimal.exactContext.trap (Decimal.exactContext.add d e)
  | .sub => some fun d e => Decimal.exactContext.trap (Decimal.exactContext.sub d e)
  | .mul => some fun d e => Decimal.exactContext.trap (Decimal.exactContext.mul d e)
  | .div => some fun d e => Decimal.divisionContext.trap (Decimal.divisionContext.div d e)
  | .mod => none

end Operation

namespace Value

open Operation

def attemptIntegers (op : Operation) (k : IntKind) (x y : Int) :
    Except Undefined (Except Obstacle Value) := do
  let result ← op.attemptOnInt x y
  if k.InRange result then
    let v ← attemptConstruct (.integer k) (.integer result)
    return .ok v
  else if digitLimit < digitCount result.natAbs then throw (.unwritable result)
  else return .error (.outOfRange result)

/-- The numbers are floats in the form of doubles; the operation is the one of the kind's format. -/
def attemptFloats (op : Operation) (k : FloatKind) (x y : Binary .double) :
    Except Undefined (Except Obstacle Value) :=
  match op.onBinary? k.format with
  | none => throw (.noOperation op (.floating k))
  | some f => do
    let result := f (Binary.convert k.format x) (Binary.convert k.format y)
    let v ← attemptConstruct (.floating k) (.floating (Binary.convert .double result))
    return .ok v

def attemptDecimals (op : Operation) (d e : Decimal) : Except Undefined (Except Obstacle Value) :=
  match op.onDecimal? with
  | none => throw (.noOperation op .bigdecimal)
  | some f =>
    match f d e with
    | .error conditions => return .error (.trapped conditions)
    | .ok result => do
      let v ← attemptConstruct .bigdecimal (.decimal result)
      return .ok v

/-- Whether the operation would divide by zero. Nothing but a divisor is compared. -/
def attemptDivisor (op : Operation) (right : Number) : Except Undefined Bool :=
  if op.divides then right.attemptIsZero else return false

/-- An operation on two numbers that ought to be of the given kind. -/
def attemptOperate (op : Operation) (k : Kind) (left right : Number) :
    Except Undefined (Except Obstacle Value) := do
  let zero ← attemptDivisor op right
  if zero then return .error .divisorZero
  else if op = .mod ∧ k.isInteger = false then return .error .divisorNotInteger
  else
    match k, left, right with
    | .integer k, .integer x, .integer y => attemptIntegers op k x y
    | .floating k, .floating x, .floating y => attemptFloats op k x y
    | .bigdecimal, .decimal d, .decimal e => attemptDecimals op d e
    | k, _, _ => throw (.foreignNumber k)

def attemptApply (op : Operation) (a b : Value) : Except Undefined (Except Obstacle Value) := do
  let (k, left, right) ← a.attemptCoerce b
  attemptOperate op k left right

/-! ### Results of the three sorts -/

/-- Results of integers that are in range have at most twice as many bits. One case for each
operation. -/
theorem natAbs_onInt_le (op : Operation) {x y : Int} (hx : x.natAbs ≤ 2147483648)
    (hy : y.natAbs ≤ 2147483648) : (op.onInt x y).natAbs ≤ 2147483648 * 2147483648 := by
  cases op with
  | add => have := Int.natAbs_add_le x y; simp only [onInt]; omega
  | sub => have := Int.natAbs_sub_le x y; simp only [onInt]; omega
  | mul =>
    rw [onInt, Int.natAbs_mul]
    exact Nat.mul_le_mul hx hy
  | div =>
    rw [onInt_div, Int.natAbs_tdiv]
    exact ((Nat.div_le_self _ _).trans hx).trans (by decide)
  | mod =>
    rw [onInt_mod, Int.natAbs_tmod]
    exact ((Nat.mod_le _ _).trans hx).trans (by decide)

/-- A message about an overflow can always be written: such a result has at most twenty digits,
and the limit is far above. -/
theorem digitCount_onInt_le (op : Operation) {x y : Int} (hx : x.natAbs ≤ 2147483648)
    (hy : y.natAbs ≤ 2147483648) : digitCount (op.onInt x y).natAbs ≤ digitLimit := by
  have hlt : (op.onInt x y).natAbs < 10 ^ 20 :=
    Nat.lt_of_le_of_lt (natAbs_onInt_le op hx hy) (by decide)
  exact (Nat.toDigits_length 10 _ 20 (by decide) hlt).trans (by decide)

/-- Operations on integers of a kind do not crash, if a divisor is not zero. A result out of range
is a failure that is told, and telling it does not crash. -/
theorem attemptIntegers_eq {op : Operation} {k : IntKind} (m n : (Kind.integer k).Number)
    (hzero : (op.divides && n.val == 0) = false) :
    attemptIntegers op k m.val n.val = .ok ((Kind.operate op (.integer k) m n).map (mk _)) := by
  have hint : op.attemptOnInt m.val n.val = .ok (op.onInt m.val n.val) := by
    rw [attemptOnInt, hzero]
    rfl
  simp only [attemptIntegers, hint, Kind.operate]
  show (if k.InRange (op.onInt m.val n.val) then _ else _) = _
  by_cases hrange : k.InRange (op.onInt m.val n.val)
  · rw [if_pos hrange, dif_pos hrange, attemptConstruct, ofNumber_integer hrange]
    rfl
  · have hwritable := digitCount_onInt_le op m.property.natAbs_le n.property.natAbs_le
    rw [if_neg hrange, dif_neg hrange, if_neg (Nat.not_lt.mpr hwritable)]
    rfl

/-- Operations on floats do not crash. They are done on doubles that come from the format, and go
back to it unchanged. -/
theorem attemptFloats_eq {op : Operation} {k : FloatKind} (x y : Binary k.format)
    (hmod : op ≠ .mod) :
    attemptFloats op k (Binary.convert .double x) (Binary.convert .double y)
      = .ok ((Kind.operate op (.floating k) x y).map (mk _)) := by
  have hconstruct (z : Binary k.format) :
      attemptConstruct (.floating k) (.floating (Binary.convert .double z)) = .ok ⟨.floating k, z⟩ :=
    attemptConstruct_plain ⟨.floating k, z⟩
  cases op with
  | mod => exact absurd rfl hmod
  | add => simp only [attemptFloats, onBinary?, k.embeds.convert_convert, hconstruct]; rfl
  | sub => simp only [attemptFloats, onBinary?, k.embeds.convert_convert, hconstruct]; rfl
  | mul => simp only [attemptFloats, onBinary?, k.embeds.convert_convert, hconstruct]; rfl
  | div => simp only [attemptFloats, onBinary?, k.embeds.convert_convert, hconstruct]; rfl

/-- Operations on decimals do not crash: a trapped condition is caught and told. -/
theorem attemptDecimals_eq {op : Operation} (d e : Decimal) (hmod : op ≠ .mod) :
    attemptDecimals op d e = .ok ((Kind.operate op .bigdecimal d e).map (mk _)) := by
  -- the constructor takes every decimal, so only the traps of the context are left
  have hdone (r : Except Decimal.Trapped Decimal) :
      (match r with
        | .error conditions => return .error (.trapped conditions)
        | .ok result => do
          let v ← attemptConstruct .bigdecimal (.decimal result)
          return .ok v : Except Undefined (Except Obstacle Value))
        = .ok ((r.mapError .trapped).map (mk .bigdecimal)) := by
    cases r <;> rfl
  cases op with
  | mod => exact absurd rfl hmod
  | add => exact hdone _
  | sub => exact hdone _
  | mul => exact hdone _
  | div => exact hdone _

/-! ### The agreement -/

/-- Comparing a divisor with zero does not crash, unless it signals. Operations that do not divide
compare nothing. -/
theorem attemptDivisor_eq {op : Operation} {k : Kind} {y : k.Number}
    (h : (op.divides && k.signals y) = false) :
    attemptDivisor op (plain ⟨k, y⟩) = .ok (op.divides && k.isZero y) := by
  have hsignals : (plain ⟨k, y⟩).signals = k.signals y := signals_plain ⟨k, y⟩
  have hiszero : (plain ⟨k, y⟩).isZero = k.isZero y := isZero_plain ⟨k, y⟩
  cases hd : op.divides with
  | false => rw [attemptDivisor, hd]; rfl
  | true =>
    rw [hd, Bool.true_and] at h
    rw [attemptDivisor, hd, Number.attemptIsZero, hsignals, h, hiszero]
    rfl

/-- The operation on two numbers of a kind: the divisor first, then the operation of the kind. -/
theorem attemptOperate_eq {op : Operation} {k : Kind} (x : k.Number) {y : k.Number}
    (h : (op.divides && k.signals y) = false) :
    attemptOperate op k (plain ⟨k, x⟩) (plain ⟨k, y⟩)
      = .ok ((if op.divides && k.isZero y then .error .divisorZero else k.operate op x y).map
          (mk k)) := by
  unfold attemptOperate
  rw [attemptDivisor_eq h]
  show (if (op.divides && k.isZero y) = true then _ else _) = _
  cases hzero : op.divides && k.isZero y with
  | true => rfl
  | false =>
    rw [if_neg Bool.false_ne_true, if_neg Bool.false_ne_true]
    by_cases hmod : op = .mod ∧ k.isInteger = false
    · -- the remainder that the tables do not have is refused before they are asked
      obtain ⟨rfl, hk⟩ := hmod
      cases k with
      | integer k => cases hk
      | floating k => rfl
      | bigdecimal => rfl
    · rw [if_neg hmod]
      cases k with
      | integer k => exact attemptIntegers_eq x y hzero
      | floating k => exact attemptFloats_eq x y fun h => hmod ⟨h, rfl⟩
      | bigdecimal => exact attemptDecimals_eq x y fun h => hmod ⟨h, rfl⟩

/-- **Arithmetic does not crash** unless its divisor signals. The partial operations give what the
total ones do, with the same obstacle where they fail. -/
theorem attemptApply_eq {op : Operation} (a : Value) {b : Value}
    (h : (op.divides && b.signals) = false) :
    attemptApply op a b = .ok ((obstacleOrNumber op a b).map (mk (a.kind.join b.kind))) := by
  rw [attemptApply, attemptCoerce_eq]
  exact attemptOperate_eq _ (by rw [signals_widen]; exact h)

end Value

end StackMachine
