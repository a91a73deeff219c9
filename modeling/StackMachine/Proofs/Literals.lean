import Mathlib
import StackMachine.Assembly
import StackMachine.Proofs.PlainNumbers
import StackMachine.Proofs.QuietPrograms

/-!
# What a source can put into a program

All operands of an assembled program come from its lines. A value operand is the value of a literal,
and literals are finite: what is read as an infinity or a `nan` is refused, and a float is compared
with the largest one before it is rounded, so rounding cannot overflow. A register operand is an
index that was tested.

* **`Value.isFinite_of_parse`**: literals are finite.
* **`Instruction.make_ok`**: what the operands of an instruction have passed.
* **`Assembly.forall_mem_of_assembleLines`**: what is known of lines is known of assembled programs, such
  as that all their instructions are well formed.
* **`Assembly.quiet_of_assembleLines`**: nothing in an assembled program signals.
-/

namespace StackMachine

/-! ## Readers that succeed -/

section

variable {ε δ α β : Type}

theorem eq_ok_of_mapError {x : Except ε α} {f : ε → δ} {a : α} (h : x.mapError f = .ok a) :
    x = .ok a := by
  cases x with
  | error e => cases h
  | ok b => cases h; rfl

theorem exists_ok_of_map {x : Except ε α} {f : α → β} {b : β} (h : x.map f = .ok b) :
    ∃ a, x = .ok a ∧ f a = b := by
  cases x with
  | error e => cases h
  | ok a => cases h; exact ⟨a, rfl, rfl⟩

theorem exists_ok_of_bind {x : Except ε α} {f : α → Except ε β} {b : β} (h : x >>= f = .ok b) :
    ∃ a, x = .ok a ∧ f a = .ok b := by
  cases x with
  | error e => cases h
  | ok a => exact ⟨a, rfl, h⟩

/-! ## Readers that fail -/

theorem exists_error_of_mapError {x : Except ε α} {f : ε → δ} {e : δ} (h : x.mapError f = .error e) :
    ∃ e', x = .error e' ∧ f e' = e := by
  cases x with
  | error e' => cases h; exact ⟨e', rfl, rfl⟩
  | ok a => cases h

theorem map_eq_error_iff {x : Except ε α} {f : α → β} {e : ε} : x.map f = .error e ↔ x = .error e := by
  cases x <;> simp [Except.map]

theorem error_or_of_bind {x : Except ε α} {f : α → Except ε β} {e : ε} (h : x >>= f = .error e) :
    x = .error e ∨ ∃ a, x = .ok a ∧ f a = .error e := by
  cases x with
  | error e' => cases h; exact Or.inl rfl
  | ok a => exact Or.inr ⟨a, rfl, h⟩

theorem ReadError.exists_of_map_eq_invalid {r : ReadError ε} {f : ε → δ} {d : δ}
    (h : r.map f = .invalid d) : ∃ e, r = .invalid e ∧ f e = d := by
  cases r with
  | invalid e => cases h; exact ⟨e, rfl, rfl⟩
  | tooManyDigits e => cases h

end

/-! ## The largest number of a format -/

namespace Format

/-- The largest number of a format: a full significand at the top of the range. -/
def largest (fmt : Format) : Nat :=
  (2 ^ fmt.precision - 1) * 2 ^ (fmt.bound - fmt.precision)

/-- The largest number is one of the format, as it has a full significand and nothing more. -/
theorem representable_largest {fmt : Format} (h : fmt.precision ≤ fmt.bound) :
    fmt.Representable fmt.largest := by
  have hm : 2 ^ fmt.precision - 1 < 2 ^ fmt.precision := Nat.sub_one_lt (Nat.two_pow_pos _).ne'
  apply representable_of_mul hm
  calc (2 ^ fmt.precision - 1) * 2 ^ (fmt.bound - fmt.precision)
      < 2 ^ fmt.precision * 2 ^ (fmt.bound - fmt.precision) :=
        Nat.mul_lt_mul_of_pos_right hm (Nat.two_pow_pos _)
    _ = 2 ^ fmt.bound := by rw [← pow_add, Nat.add_sub_cancel' h]

end Format

namespace Value

/-- The bound of float literals is the largest float, told in the units of both formats. -/
theorem largestFloat_eq :
    largestFloat * 2 ^ Format.single.scale = Format.single.largest * 2 ^ Format.double.scale := by
  decide +kernel

/-- A double that is no larger than the largest float stays finite as a float. The literals of
floats are tested for it before they are rounded. -/
theorem isFinite_convert_single {negative : Bool} {units : Nat}
    (h : Format.double.Representable units) (hle : units ≤ largestFloat) :
    (Binary.convert .single (.finite negative units h)).isFinite = true := by
  have hlargest : Format.single.Representable Format.single.largest :=
    Format.representable_largest (by decide)
  have hunits : units * 2 ^ Format.single.scale
      ≤ Format.single.largest * 2 ^ Format.double.scale :=
    calc units * 2 ^ Format.single.scale
        ≤ largestFloat * 2 ^ Format.single.scale := Nat.mul_le_mul_right _ hle
      _ = Format.single.largest * 2 ^ Format.double.scale := largestFloat_eq
  exact Binary.isFinite_convert (by decide) h hlargest hunits negative

end Value

/-! ## Literals are finite -/

def Kind.isFinite : (k : Kind) → k.Number → Bool
  | .integer _, _ => true
  | .floating _, x => Binary.isFinite x
  | .bigdecimal, d => Decimal.isFinite d

def Value.isFinite (v : Value) : Bool :=
  v.kind.isFinite v.number

/-- Finite numbers do not signal: only a decimal that is no number can. -/
theorem Value.signals_of_isFinite {v : Value} (h : v.isFinite = true) : v.signals = false := by
  match v with
  | ⟨.integer _, _⟩ => rfl
  | ⟨.floating _, _⟩ => rfl
  | ⟨.bigdecimal, .finite _ _ _⟩ => rfl

namespace Value

/-- **What is read as an integer**: a sign and digits within the limit, which make an integer in
the range of the kind. -/
theorem readInteger_eq_ok_iff {k : IntKind} {body : List Char} {v : Value} :
    readInteger k body = .ok v ↔
      ∃ negative values, Numeral.spanInteger? body = some (negative, values) ∧ values.length ≤ digitLimit ∧
        ∃ n, ∃ h : k.InRange n, n = signed negative (Text.natOfDigits values) ∧ v = ofInt k n h := by
  constructor
  · intro h
    unfold readInteger at h
    split at h
    · cases h
    · next negative values hspan =>
      obtain ⟨n, hn, h⟩ := exists_ok_of_bind h
      -- the limit is tested before the range
      unfold Numeral.intOfDigits at hn
      split at hn
      · cases hn
      · next hlimit =>
        cases hn
        split at h
        · next hrange =>
          cases h
          exact ⟨negative, values, hspan, Nat.le_of_not_lt hlimit, _, hrange, rfl, rfl⟩
        · cases h
  · rintro ⟨negative, values, hspan, hlimit, n, hrange, hn, rfl⟩
    rw [readInteger, hspan]
    simp only [Numeral.intOfDigits, if_neg (Nat.not_lt.mpr hlimit), ← hn]
    show (if h : k.InRange _ then _ else _) = _
    rw [dif_pos hrange]
    rfl

theorem isFinite_of_readInteger {k : IntKind} {body : List Char} {v : Value}
    (h : readInteger k body = .ok v) : v.isFinite = true := by
  obtain ⟨_, _, -, -, _, _, -, rfl⟩ := readInteger_eq_ok_iff.mp h
  rfl

theorem isFinite_float {x : Binary .single} (h : x.isFinite = true) :
    isFinite ⟨.floating .float, x⟩ = true := by
  cases x with
  | nan => cases h
  | infinity negative => cases h
  | finite negative u hu => rfl

/-- Infinities and `nan` are refused in literals, and so are numbers that would be rounded to an
infinity. -/
theorem isFinite_of_readFloating {k : FloatKind} {body : List Char} {v : Value}
    (h : readFloating k body = .ok v) : v.isFinite = true := by
  unfold readFloating at h
  split at h
  · cases h
  · split at h
    · cases h; rfl
    · next negative units hu _ =>
      split at h
      · cases h
      · next hle =>
        cases h
        exact isFinite_float (isFinite_convert_single hu (Nat.not_lt.mp hle))
    · cases h

/-- Decimals that are no finite numbers are refused in literals. -/
theorem isFinite_of_readDecimal {body : List Char} {v : Value} (h : readDecimal body = .ok v) :
    v.isFinite = true := by
  unfold readDecimal at h
  split at h
  · cases h
  · split at h
    · cases h
    · next d hd =>
      cases h
      unfold Decimal.ofNumeral? at hd
      split at hd
      · cases hd; rfl
      · cases hd
  · cases h

/-- **Literals are finite**, whatever their kind. A program can come to an infinity by arithmetic
only. -/
theorem isFinite_of_parse {text : List Char} {v : Value} (h : parse text = .ok v) :
    v.isFinite = true := by
  unfold parse at h
  split at h
  · cases h
  · split at h
    · cases h
    · exact isFinite_of_readInteger h
    · exact isFinite_of_readFloating (eq_ok_of_mapError h)
    · exact isFinite_of_readDecimal (eq_ok_of_mapError h)

end Value

/-! ## Operands of instructions -/

namespace Instruction

/-- The operand that an instruction was made from. -/
inductive OperandCase (i : Instruction) : Option Operand → Prop where
  | bare (hv : i.value? = none) (hr : i.register? = none) : OperandCase i none
  | value (v : Value) (hv : i.value? = some v) (hr : i.register? = none) :
      OperandCase i (some (.value v))
  | register (r : Register) (n : Int) (hv : i.value? = none) (hr : i.register? = some r)
      (hn : n = r.val) : OperandCase i (some (.index n))

theorem bare_ok {op : Opcode} {i j : Instruction} {operand : Option Operand}
    (h : bare op j operand = .ok i) : i = j ∧ operand = none := by
  cases operand with
  | none => cases h; exact ⟨rfl, rfl⟩
  | some o => cases h

theorem withValue_ok {op : Opcode} {build : Value → Instruction} {operand : Option Operand}
    {i : Instruction} (h : withValue op build operand = .ok i) :
    ∃ v, operand = some (.value v) ∧ i = build v := by
  unfold withValue at h
  split at h
  · cases h
  · next v => cases h; exact ⟨v, rfl, rfl⟩
  · cases h

theorem register_ok {n : Int} {r : Register} (h : register n = .ok r) : n = r.val := by
  unfold register at h
  split at h
  · next hn =>
    cases h
    exact (Int.toNat_of_nonneg hn.1).symm
  · cases h

/-- An instruction with a register was made from the index of that register. -/
theorem withRegister_ok {op : Opcode} {build : Register → Instruction} {operand : Option Operand}
    {i : Instruction} (h : withRegister op build operand = .ok i) :
    ∃ (n : Int) (r : Register), operand = some (.index n) ∧ n = r.val ∧ i = build r := by
  unfold withRegister at h
  split at h
  · cases h
  · next n =>
    obtain ⟨r, hr, hi⟩ := exists_ok_of_map h
    exact ⟨n, r, rfl, register_ok hr, hi.symm⟩
  · cases h

/-- **What the operand of an instruction is.** An instruction that can be made has just the
operand that its opcode takes. One case for each opcode. -/
theorem make_ok {op : Opcode} {operand : Option Operand} {i : Instruction}
    (h : make op operand = .ok i) : i.opcode = op ∧ OperandCase i operand := by
  cases op with
  | push | assert =>
    obtain ⟨v, rfl, rfl⟩ := withValue_ok h
    exact ⟨rfl, .value v rfl rfl⟩
  | load | store =>
    obtain ⟨n, r, rfl, hn, rfl⟩ := withRegister_ok h
    exact ⟨rfl, .register r n rfl rfl hn⟩
  | noop | pop | dump | clear | dup | swap | arith op | print | exit =>
    obtain ⟨rfl, rfl⟩ := bare_ok h
    exact ⟨rfl, .bare rfl rfl⟩

/-- Value operands are finite numbers of their kind, register operands are indices in range from
which the instruction was made. -/
structure WellFormed (i : Instruction) : Prop where
  value : ∀ v, i.value? = some v → v.WellFormed ∧ v.isFinite = true
  register : ∀ r, i.register? = some r →
    ∃ n : Int, 0 ≤ n ∧ n < 16 ∧ n = r.val ∧ make i.opcode (some (.index n)) = .ok i

end Instruction

/-! ## Assembled programs -/

namespace Assembly

/-- A value operand was read as a literal. -/
theorem parse_of_readOperand {op : Opcode} {text : List Char} {v : Value}
    (h : readOperand op text = .ok (some (.value v))) : Value.parse text = .ok v := by
  unfold readOperand at h
  split at h
  · cases h
  · split at h
    · obtain ⟨w, hw, hv⟩ := exists_ok_of_map h
      cases hv
      exact eq_ok_of_mapError hw
    · split at h
      · obtain ⟨n, -, hv⟩ := exists_ok_of_map h
        cases hv
      · cases h

/-- **The inversion of a line.** The operand was read, and the instruction made from it. What is
proved of assembled instructions starts here. -/
theorem readInstruction_ok {line : List Char} {i : Instruction} (h : readInstruction line = .ok i) :
    ∃ text operand, readOperand i.opcode text = .ok operand
      ∧ Instruction.make i.opcode operand = .ok i ∧ Instruction.OperandCase i operand := by
  unfold readInstruction at h
  dsimp only at h
  split at h
  · cases h
  · next op _ =>
    obtain ⟨operand, hread, h⟩ := exists_ok_of_bind h
    have hmake := eq_ok_of_mapError h
    obtain ⟨rfl, hcase⟩ := Instruction.make_ok hmake
    exact ⟨_, operand, hread, hmake, hcase⟩

/-- A value operand is the value of a literal, so what holds of literals holds of it. -/
theorem exists_parse_of_readInstruction {line : List Char} {i : Instruction}
    (h : readInstruction line = .ok i) {v : Value} (hv : i.value? = some v) :
    ∃ text, Value.parse text = .ok v := by
  obtain ⟨text, operand, hread, -, hcase⟩ := readInstruction_ok h
  cases hcase with
  | bare hnone hr => cases hnone.symm.trans hv
  | value w hw hr =>
    cases hw.symm.trans hv
    exact ⟨text, parse_of_readOperand hread⟩
  | register r n hnone hr hn => cases hnone.symm.trans hv

/-- No operand of a line that can be read signals. -/
theorem signals_of_readInstruction {line : List Char} {i : Instruction}
    (h : readInstruction line = .ok i) {v : Value} (hv : i.value? = some v) : v.signals = false := by
  obtain ⟨text, hparse⟩ := exists_parse_of_readInstruction h hv
  exact Value.signals_of_isFinite (Value.isFinite_of_parse hparse)

/-- A line that can be read gives a well-formed instruction: finite numbers of their kinds, and
registers that there are. -/
theorem wellFormed_of_readInstruction {line : List Char} {i : Instruction}
    (h : readInstruction line = .ok i) : i.WellFormed := by
  refine ⟨?_, ?_⟩
  · intro v hv
    obtain ⟨text, hparse⟩ := exists_parse_of_readInstruction h hv
    exact ⟨Value.wellFormed (signals_of_readInstruction h hv), Value.isFinite_of_parse hparse⟩
  · intro r hr
    obtain ⟨text, operand, -, hmake, hcase⟩ := readInstruction_ok h
    cases hcase with
    | bare hv hnone => cases hnone.symm.trans hr
    | value v hv hnone => cases hnone.symm.trans hr
    | register r' n hv hr' hn =>
      cases hr'.symm.trans hr
      have hlt : r.val < 16 := r.isLt
      exact ⟨n, by omega, by omega, hn, hmake⟩

/-- **What holds of every instruction that a line can be read as** holds of all instructions of an
assembled program. -/
theorem forall_mem_of_assembleLines {P : Instruction → Prop}
    (hline : ∀ line i, readInstruction line = .ok i → P i) {n : Nat} {lines : List (List Char)}
    {prog : Program} (h : assembleLines n lines = .ok prog) : ∀ i ∈ prog, P i := by
  induction lines generalizing n prog with
  | nil => cases h; simp
  | cons line lines ih =>
    unfold assembleLines at h
    dsimp only at h
    split at h
    · exact ih h
    · obtain ⟨i, hi, h⟩ := exists_ok_of_bind h
      obtain ⟨rest, hrest, h⟩ := exists_ok_of_bind h
      cases h
      rintro j (_ | ⟨_, hj⟩)
      · exact hline _ i (eq_ok_of_mapError hi)
      · exact ih hrest j hj

/-- All instructions of an assembled program are well formed, because each comes from a line of
it. -/
theorem wellFormed_of_assembleLines {n : Nat} {lines : List (List Char)} {prog : Program}
    (h : assembleLines n lines = .ok prog) : ∀ i ∈ prog, i.WellFormed :=
  forall_mem_of_assembleLines (fun _ _ hi => wellFormed_of_readInstruction hi) h

/-- Literals are finite, so no operand of an assembled program signals. Its processes start from
an empty memory, and stay quiet. -/
theorem quiet_of_assembleLines {n : Nat} {lines : List (List Char)} {prog : Program}
    (h : assembleLines n lines = .ok prog) : prog.Quiet := by
  refine forall_mem_of_assembleLines (fun line i hi => ?_) h
  have hvalue := @signals_of_readInstruction line i hi
  cases i with
  | push v => exact hvalue rfl
  | assert v => exact hvalue rfl
  | _ => rfl

theorem quiet_of_assembleBytes {bytes : List UInt8} {prog : Program}
    (h : assembleBytes bytes = .ok prog) : prog.Quiet := by
  unfold assembleBytes at h
  split at h
  · exact quiet_of_assembleLines h
  · cases h

end Assembly

end StackMachine
