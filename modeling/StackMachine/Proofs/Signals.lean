import StackMachine.Value.Arithmetic

/-!
# Numbers that signal

A decimal that signals makes a comparison raise, and an operation with it fails. It can only come from
outside: no promotion and no operation ever makes one. So what a comparison or an operation does is
told by whether its operands signal, and beyond that by the pure functions `Value.numEq` and
`Value.obstacleOrNumber`, about which everything else is proved.

* **`Value.signals_widen`**: promotion neither makes nor loses a signal.
* **`Value.equals_eq`**, **`Value.apply_of_signals`**: comparison and arithmetic, in terms of the
  operands as they were before the promotion.
* **`Kind.signals_operate`**, **`Value.signals_of_apply`**: no result signals.
-/

namespace StackMachine

/-! ## Promotion -/

/-- Only decimals signal, and a number that has become a decimal does not: a float has one `nan`,
and it becomes a quiet one. -/
theorem Binary.signals_toDecimal {f : Format} (x : Binary f) : x.toDecimal.signals = false := by
  cases x with
  | nan => rfl
  | infinity negative => rfl
  | finite negative units h =>
    unfold toDecimal
    split <;> rfl

namespace Value

/-- **Promotion keeps signals.** Every number but a decimal is quiet before and after, and a
decimal is promoted to itself. -/
@[simp] theorem signals_widen (v : Value) (k : Kind) (h : v.kind ≤ k) :
    k.signals (v.widen k h) = v.signals := by
  match v, k, h with
  | ⟨.integer _, n⟩, .integer _, _ => rfl
  | ⟨.integer _, n⟩, .floating _, _ => rfl
  | ⟨.integer _, n⟩, .bigdecimal, _ => rfl
  | ⟨.floating .float, x⟩, .floating .float, _ => rfl
  | ⟨.floating .float, x⟩, .floating .double, _ => rfl
  | ⟨.floating .double, x⟩, .floating .double, _ => rfl
  | ⟨.floating .float, x⟩, .bigdecimal, _ => exact Binary.signals_toDecimal x
  | ⟨.floating .double, x⟩, .bigdecimal, _ => exact Binary.signals_toDecimal x
  | ⟨.bigdecimal, d⟩, .bigdecimal, _ => rfl

/-! ## Comparison and arithmetic -/

/-- Two values are compared unless one of them signals. Promotion does not come into it, so the
values can be asked as they are given. -/
theorem equals_eq (a b : Value) :
    a.equals b = Decimal.unlessSignal (a.signals || b.signals) (a.numEq b) := by
  simp only [equals, Kind.equals, signals_widen, numEq]

/-- There is one thing only that a comparison raises. -/
theorem equals_eq_error {a b : Value} {conditions : Decimal.Trapped}
    (h : a.equals b = .error conditions) : conditions = .signal := by
  rw [equals_eq, Decimal.unlessSignal] at h
  split at h
  · exact (Except.error.inj h).symm
  · cases h

/-- Quiet values can be compared, and the answer is that of the promoted numbers. -/
theorem equals_of_quiet {a b : Value} (ha : a.signals = false) (hb : b.signals = false) :
    a.equals b = .ok (a.numEq b) := by
  rw [equals_eq, ha, hb]
  rfl

section
variable {op : Operation} {a b : Value}

/-- A divisor that signals is not compared with zero. The comparison raises something before
arithmetic has begun, and outside of any context. -/
theorem apply_of_signals (h : (op.divides && b.signals) = true) :
    a.apply op b = .error (.signal .signal) := by
  simp only [apply, signals_widen, h, if_true]

/-- Any other operation has the result of the promoted numbers, if they have one. What else
signals, signals in the context of the operation, and there it is an arithmetic error. -/
theorem apply_of_ok {x : (a.kind.join b.kind).Number} (h : (op.divides && b.signals) = false)
    (hx : obstacleOrNumber op a b = .ok x) : a.apply op b = .ok ⟨a.kind.join b.kind, x⟩ := by
  simp [apply, h, hx]

/-- If the promoted numbers have no result, the error names the operation and the operands as they
were given. -/
theorem apply_of_error {obstacle : Obstacle} (h : (op.divides && b.signals) = false)
    (hx : obstacleOrNumber op a b = .error obstacle) :
    a.apply op b = .error (.arithmetic ⟨op, a, b, obstacle⟩) := by
  simp [apply, h, hx]

/-- What escapes from an operation, other than an arithmetic error, is always the same. -/
theorem apply_eq_signal {conditions : Decimal.Trapped}
    (h : a.apply op b = .error (.signal conditions)) : conditions = .signal := by
  cases hs : op.divides && b.signals with
  | true =>
    rw [apply_of_signals hs] at h
    cases h
    rfl
  | false =>
    cases hx : obstacleOrNumber op a b with
    | ok x => rw [apply_of_ok hs hx] at h; cases h
    | error obstacle => rw [apply_of_error hs hx] at h; cases h

/-- Only a divisor that signals makes an operation raise anything but an arithmetic error. The
other operand may signal, and so may both if nothing is divided. -/
theorem apply_ne_signal {conditions : Decimal.Trapped} (hb : b.signals = false) :
    a.apply op b ≠ .error (.signal conditions) := by
  have h : (op.divides && b.signals) = false := by rw [hb, Bool.and_false]
  cases hx : obstacleOrNumber op a b with
  | ok x => rw [apply_of_ok h hx]; nofun
  | error obstacle => rw [apply_of_error h hx]; nofun

end

end Value

/-! ## Results -/

namespace Decimal.Context

/-- Rounding ends with a finite number or an infinity, never with anything that signals. -/
theorem signals_round (ctx : Context) (negative : Bool) (num den : Nat) (ideal : Int) :
    (ctx.round negative num den ideal).value.signals = false := by
  simp only [round, carried]
  -- all ends of rounding are finite or infinite
  repeat' split
  all_goals rfl

theorem signals_addOrdered (ctx : Context) (s : Bool) (c : Nat) (e : Int) (t : Bool) (d : Nat)
    (f : Int) : (ctx.addOrdered s c e t d f).value.signals = false :=
  signals_round ..

/-- A sum does not signal: what is handed on is quiet, and everything else is rounded. The cases
are those of the two operands. -/
theorem signals_add (ctx : Context) (x y : Decimal) : (ctx.add x y).value.signals = false := by
  fun_cases add ctx x y
  all_goals first | rfl | exact signals_addOrdered ..

/-- A product does not signal, for the same reason. -/
theorem signals_mul (ctx : Context) (x y : Decimal) : (ctx.mul x y).value.signals = false := by
  fun_cases mul ctx x y
  all_goals first | rfl | exact signals_round ..

/-- Nor does a quotient. -/
theorem signals_div (ctx : Context) (x y : Decimal) : (ctx.div x y).value.signals = false := by
  fun_cases div ctx x y
  all_goals first | rfl | exact signals_round ..

/-- A result that is not trapped is the value of its outcome. -/
theorem trap_eq_ok {ctx : Context} {r : Outcome} {d : Decimal} (h : ctx.trap r = .ok d) :
    d = r.value := by
  unfold trap at h
  split at h
  · exact (Except.ok.inj h).symm
  · cases h

end Decimal.Context

open Decimal.Context in
/-- **No result signals**, whatever the operands are. Only decimals have to be looked at, and the
value of an outcome is quiet whether it is trapped or not. -/
theorem Kind.signals_operate {op : Operation} {k : Kind} {x y z : k.Number}
    (h : k.operate op x y = .ok z) : k.signals z = false := by
  cases k with
  | integer k => rfl
  | floating k => rfl
  | bigdecimal =>
    -- a result of the decimals is the value of an outcome that was not trapped
    have htrap : ∀ {ctx : Decimal.Context} {r : Decimal.Outcome}, r.value.signals = false →
        (ctx.trap r).mapError Value.Obstacle.trapped = .ok z → Decimal.signals z = false := by
      intro ctx r hr hz
      cases ht : ctx.trap r with
      | error e => rw [ht] at hz; cases hz
      | ok d =>
        rw [ht] at hz
        rw [← Except.ok.inj hz, trap_eq_ok ht]
        exact hr
    cases op with
    | add => exact htrap (signals_add _ x y) h
    | sub => exact htrap (signals_add _ x _) h
    | mul => exact htrap (signals_mul _ x y) h
    | div => exact htrap (signals_div _ x y) h
    | mod => cases h

/-- The same of values. So no program makes a number that signals unless it holds one from the
start. -/
theorem Value.signals_of_apply {op : Operation} {a b v : Value} (h : a.apply op b = .ok v) :
    v.signals = false := by
  cases hs : op.divides && b.signals with
  | true => rw [apply_of_signals hs] at h; cases h
  | false =>
    cases hx : obstacleOrNumber op a b with
    | error obstacle => rw [apply_of_error hs hx] at h; cases h
    | ok x =>
      rw [apply_of_ok hs hx] at h
      cases h
      simp only [obstacleOrNumber] at hx
      split at hx
      · cases hx
      · exact Kind.signals_operate hx

end StackMachine
