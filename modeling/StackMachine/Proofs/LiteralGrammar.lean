import Mathlib
import StackMachine.Proofs.Disassembly

/-!
# The grammar of integer literals

Which texts are read as an integer, and as which one: a name in any case, and in its frame a sign and
digits. Digits of all scripts count and may be mixed, and their number is bounded before their value is.

* **`Kind.ofName?_toLower_eq_some_iff`**: names in any case.
* **`Numeral.spanInteger?_eq_some_iff`**: a sign and a row of digits.
* **`Value.IntegerLiteral`**: the grammar.
* **`Value.integer_literal_grammar`**: the headline.
-/

namespace StackMachine

open Text

/-! ## Names in any case -/

/-- Every element of the first list is related to one of the second. Induction on the relation
between the lists. -/
theorem exists_of_mem_left {α β : Type} {R : α → β → Prop} {as : List α} {bs : List β}
    (h : List.Forall₂ R as bs) {a : α} (ha : a ∈ as) : ∃ b ∈ bs, R a b := by
  induction h with
  | nil => cases ha
  | cons hab _ ih =>
    rcases List.mem_cons.mp ha with rfl | ha
    · exact ⟨_, List.mem_cons_self, hab⟩
    · obtain ⟨b, hb, hrel⟩ := ih ha
      exact ⟨b, List.mem_cons_of_mem _ hb, hrel⟩

namespace Kind

/-- A text spells a name if its letters are those of the name, each in upper or lower case. -/
def Spells (cs name : List Char) : Prop :=
  List.Forall₂ (fun c d => c = d ∨ c = d.toUpper) cs name

/-- A lower-case character, a digit included, comes from itself or from its upper case. -/
theorem toLower_eq_iff {c d : Char} (hd : d.isUpper = false) :
    c.toLower = d ↔ c = d ∨ c = d.toUpper := by
  have hlower : d.toLower = d := Char.toLower_eq_of_not_isUpper (by simp [hd])
  constructor
  · rintro rfl
    rw [Char.toUpper_toLower_eq_toUpper]
    by_cases hc : c.isUpper = true
    · right
      exact (Char.toUpper_eq_of_not_isLower (Char.not_isLower_of_isUpper hc)).symm
    · exact .inl (Char.toLower_eq_of_not_isUpper hc).symm
  · rintro (rfl | rfl)
    · exact hlower
    · rw [Char.toLower_toUpper_eq_toLower, hlower]

/-- A text in lower case is a name just when the text spells it. Induction over the name. -/
theorem map_toLower_eq_iff {cs name : List Char} (h : ∀ d ∈ name, d.isUpper = false) :
    cs.map Char.toLower = name ↔ Spells cs name := by
  induction name generalizing cs with
  | nil => simp [Spells]
  | cons d name ih =>
    have htail : ∀ e ∈ name, e.isUpper = false := fun e he => h e (List.mem_cons_of_mem d he)
    cases cs with
    | nil => simp [Spells]
    | cons c cs =>
      rw [List.map_cons, List.cons.injEq, toLower_eq_iff (h d List.mem_cons_self), ih htail, Spells,
        Spells, List.forall₂_cons]

theorem isUpper_name (k : Kind) : ∀ c ∈ k.name.toList, c.isUpper = false := by
  have hall : k.name.toList.all (fun c => !c.isUpper) = true := by
    cases k with
    | integer k => cases k <;> decide
    | floating k => cases k <;> decide
    | bigdecimal => decide
  intro c hc
  simpa using List.all_eq_true.mp hall c hc

/-- What is found by a name in lower case is found by every spelling of it, and by nothing else.
Kinds and opcodes are looked up in the same way. -/
theorem find?_toLower_eq_some_iff {α : Type} {all : List α} (name : α → List Char) {a : α}
    (hupper : ∀ c ∈ name a, c.isUpper = false)
    (hfound : all.find? (name · == (name a).map Char.toLower) = some a) {cs : List Char} :
    all.find? (name · == cs.map Char.toLower) = some a ↔ Spells cs (name a) := by
  constructor
  · intro h
    have hname := List.find?_some h
    exact (map_toLower_eq_iff hupper).mp (beq_iff_eq.mp hname).symm
  · intro h
    have hself : (name a).map Char.toLower = name a :=
      (map_toLower_eq_iff hupper).mpr (List.forall₂_same.mpr fun _ _ => .inl rfl)
    rw [(map_toLower_eq_iff hupper).mpr h]
    rw [hself] at hfound
    exact hfound

/-- **A kind is found by its name in any case**, even if the case changes from letter to letter.
-/
theorem ofName?_toLower_eq_some_iff {tag : List Char} {k : Kind} :
    ofName? (tag.map Char.toLower) = some k ↔ Spells tag k.name.toList :=
  find?_toLower_eq_some_iff (fun j : Kind => j.name.toList) k.isUpper_name k.ofName?_name

theorem isAlphanum_toUpper {c : Char} (h : c.isAlphanum = true) : c.toUpper.isAlphanum = true := by
  by_cases hc : c.isLower = true
  · have halpha : c.isAlpha = true := by simp [Char.isAlpha, hc]
    rw [Char.isAlphanum, Char.isAlpha_toUpper_eq_isAlpha, halpha, Bool.true_or]
  · rwa [Char.toUpper_eq_of_not_isLower hc]

/-- All characters of a spelling are letters and digits, if those of the name are. -/
theorem Spells.isAlphanum {cs name : List Char} (h : Spells cs name)
    (hname : ∀ d ∈ name, d.isAlphanum = true) : ∀ c ∈ cs, c.isAlphanum = true := by
  intro c hc
  obtain ⟨d, hd, hcase⟩ := exists_of_mem_left h hc
  rcases hcase with rfl | rfl
  · exact hname c hd
  · exact isAlphanum_toUpper (hname d hd)

/-- A spelling has the shape of a tag, whatever the case of its letters. So the reader takes all
of it as the tag. -/
theorem Spells.isTag {tag : List Char} {k : Kind} (h : Spells tag k.name.toList) :
    (∀ c ∈ tag, c.isAlphanum = true) ∧ ∃ c cs, tag = c :: cs ∧ c.isAlpha = true := by
  constructor
  · exact h.isAlphanum fun d hd => (k.isInk_name d hd).2
  · obtain ⟨d, ds, hname, halpha⟩ := k.name_eq_cons
    rw [Spells, hname] at h
    obtain ⟨c, cs, hcase, -, rfl⟩ := List.forall₂_cons_right_iff.mp h
    refine ⟨c, cs, rfl, ?_⟩
    rcases hcase with rfl | rfl
    · exact halpha
    · rwa [Char.isAlpha_toUpper_eq_isAlpha]

end Kind

/-! ## Signs and digits -/

/-- Digits of any scripts, with their values. -/
def Text.Denotes (digits : List Char) (values : List Nat) : Prop :=
  List.Forall₂ (fun c d => digitValue? c = some d) digits values

/-- All of a text are digits just when it denotes digits, of whatever scripts. Induction over the
text. -/
theorem Text.spanDigits_eq_iff {cs : List Char} {ds : List Nat} :
    spanDigits cs = (ds, []) ↔ Denotes cs ds := by
  induction cs generalizing ds with
  | nil => simp [spanDigits, Denotes, eq_comm]
  | cons c cs ih =>
    rw [spanDigits, Denotes, List.forall₂_cons_left_iff]
    cases hc : digitValue? c with
    | none => simp
    | some d =>
      simp only [Prod.mk.injEq, Option.some.injEq]
      constructor
      · rintro ⟨rfl, hrest⟩
        exact ⟨d, (spanDigits cs).1, rfl, ih.mp (Prod.ext rfl hrest), rfl⟩
      · rintro ⟨e, es, rfl, htail, rfl⟩
        rw [ih.mpr htail]
        exact ⟨rfl, rfl⟩

theorem Text.isBlank_of_digitValue? {c : Char} {d : Nat} (h : digitValue? c = some d) :
    isBlank c = false := by
  obtain ⟨base, hbase, hlow, hhigh⟩ := exists_zero_of_digitValue? h
  -- the ten digits of a script lie beside each range of blanks
  have hbeside : ∀ base ∈ digitZeros, ∀ r ∈ blankRanges, r.2 < base ∨ base + 10 ≤ r.1 := by decide
  rw [isBlank_eq_false_iff]
  intro r hr
  have := hbeside base hbase r hr
  omega

/-- The first digit is the highest; the library has it the other way round. -/
theorem Text.natOfDigits_eq_ofDigits (ds : List Nat) : natOfDigits ds = Nat.ofDigits 10 ds.reverse := by
  rw [Nat.ofDigits_eq_foldr, List.foldr_reverse, natOfDigits]
  simp only [Nat.cast_id, Nat.add_comm]

namespace Numeral

/-- A sign as it may be written, a plus sign or nothing for one that is not negative. -/
inductive Sign : List Char → Bool → Prop where
  | none : Sign [] false
  | plus : Sign ['+'] false
  | minus : Sign ['-'] true

theorem exists_sign_spanSign (cs : List Char) :
    ∃ sign, Sign sign (spanSign cs).1 ∧ cs = sign ++ (spanSign cs).2 := by
  unfold spanSign
  split
  · exact ⟨['-'], .minus, rfl⟩
  · exact ⟨['+'], .plus, rfl⟩
  · exact ⟨[], .none, rfl⟩

/-- A sign in front of digits is found again. If there is none, the first digit is not taken for
one. -/
theorem Sign.spanSign {sign digits : List Char} {negative : Bool} {values : List Nat}
    (hsign : Sign sign negative) (hdigits : Denotes digits values) (hne : digits ≠ []) :
    spanSign (sign ++ digits) = (negative, digits) := by
  cases hsign with
  | none =>
    cases hdigits with
    | nil => exact absurd rfl hne
    | cons hc _ => exact spanSign_digit (Option.isSome_of_eq_some hc) _
  | plus => rfl
  | minus => rfl

/-- **A text is a sign and digits exactly if it is read as such.** The sign may be a plus sign or
missing, but there is at least one digit. -/
theorem spanInteger?_eq_some_iff {cs : List Char} {negative : Bool} {values : List Nat} :
    spanInteger? cs = some (negative, values) ↔
      ∃ sign digits, cs = sign ++ digits ∧ Sign sign negative ∧ digits ≠ [] ∧
        Denotes digits values := by
  constructor
  · intro h
    obtain ⟨sign, hsign, hcs⟩ := exists_sign_spanSign cs
    simp only [spanInteger?] at h
    split at h
    · next d ds hspan =>
      obtain ⟨rfl, rfl⟩ := Prod.mk.inj (Option.some.inj h)
      have hdigits := spanDigits_eq_iff.mp hspan
      refine ⟨sign, _, hcs, hsign, ?_, hdigits⟩
      -- digits were read, so the text behind the sign is not empty
      intro hempty
      rw [hempty] at hdigits
      cases hdigits
    · cases h
  · rintro ⟨sign, digits, rfl, hsign, hne, hdigits⟩
    simp only [spanInteger?, hsign.spanSign hdigits hne, spanDigits_eq_iff.mpr hdigits]
    cases hdigits with
    | nil => exact absurd rfl hne
    | cons => rfl

/-- Neither a sign nor a digit of any script is a blank, so nothing is trimmed off an integer. -/
theorem isBlank_of_sign_digits {sign digits : List Char} {negative : Bool} {values : List Nat}
    (hsign : Sign sign negative) (hdigits : Denotes digits values) :
    ∀ c ∈ sign ++ digits, isBlank c = false := by
  intro c hc
  rcases List.mem_append.mp hc with hc | hc
  · cases hsign with
    | none => cases hc
    | plus => rw [List.mem_singleton.mp hc]; rfl
    | minus => rw [List.mem_singleton.mp hc]; rfl
  · obtain ⟨d, -, hd⟩ := exists_of_mem_left hdigits hc
    exact isBlank_of_digitValue? hd

end Numeral

/-! ## Integer literals -/

namespace Value

open Numeral

theorem kind_of_readInteger {k : IntKind} {body : List Char} {v : Value}
    (h : readInteger k body = .ok v) : v.kind = .integer k := by
  obtain ⟨_, _, -, -, _, _, -, rfl⟩ := readInteger_eq_ok_iff.mp h
  rfl

theorem kind_of_readDecimal {body : List Char} {v : Value} (h : readDecimal body = .ok v) :
    v.kind = .bigdecimal := by
  unfold readDecimal at h
  split at h
  · cases h
  · split at h
    · cases h
    · cases h; rfl
  · cases h

/-- An integer of a kind comes from a literal with that kind's name, and from no other: the
readers of the other kinds give values of theirs. -/
theorem parse_eq_ok_iff {text : List Char} {v : Value} {k : IntKind} (hkind : v.kind = .integer k) :
    parse text = .ok v ↔
      ∃ tag body, Framed tag body text ∧ Kind.Spells tag k.name.toList ∧
        readInteger k body = .ok v := by
  constructor
  · intro h
    unfold parse at h
    split at h
    · cases h
    · next parts hparts =>
      have hframed := splitLiteral?_eq_some_iff.mp hparts
      split at h
      · cases h
      · next j hname =>
        have hjk := (kind_of_readInteger h).symm.trans hkind
        obtain rfl := Kind.integer.inj hjk
        exact ⟨parts.tag, parts.body, hframed, Kind.ofName?_toLower_eq_some_iff.mp hname, h⟩
      · -- the readers of the other kinds give values of their own kind
        have hfloating := isFloating_of_readFloating (eq_ok_of_mapError h)
        rw [hkind] at hfloating
        cases hfloating
      · have hdecimal := kind_of_readDecimal (eq_ok_of_mapError h)
        rw [hkind] at hdecimal
        cases hdecimal
  · rintro ⟨tag, body, hframed, hspells, hread⟩
    have hname : Kind.ofName? (tag.map Char.toLower) = some (.integer k) :=
      Kind.ofName?_toLower_eq_some_iff.mpr hspells
    simp only [parse, splitLiteral?_eq_some_iff.mpr hframed, hname, hread]

/-- The literals of an integer: the name of its kind in any case, and in parentheses a sign and digits of
any scripts, not more of them than are read; blanks, line breaks among them, may stand in all five places
around these parts. -/
inductive IntegerLiteral (k : IntKind) (n : Int) : List Char → Prop where
  | mk {w₁ w₂ w₃ w₄ w₅ tag sign digits : List Char} {negative : Bool} {values : List Nat}
      (padding : ∀ w ∈ [w₁, w₂, w₃, w₄, w₅], IsPadding w)
      (name : Kind.Spells tag k.name.toList) (leading : Sign sign negative)
      (denotes : Denotes digits values) (nonempty : digits ≠ []) (short : digits.length ≤ 4300)
      (value : n = signed negative (Nat.ofDigits 10 values.reverse)) (range : k.InRange n) :
      IntegerLiteral k n (w₁ ++ tag ++ w₂ ++ '(' :: (w₃ ++ (sign ++ digits) ++ w₄ ++ ')' :: w₅))

/-- **The reader accepts the literals of an integer and no other text.** The grammar on the right
does not mention the reader; it has the blanks, the spellings, the sign, the digits and the limit
on their number. -/
theorem integer_literal_grammar (text : List Char) (k : IntKind) (n : Int) :
    (∃ h : k.InRange n, parse text = .ok (ofInt k n h)) ↔ IntegerLiteral k n text := by
  constructor
  · rintro ⟨h, hparse⟩
    obtain ⟨tag, body, hframed, hspells, hread⟩ := (parse_eq_ok_iff rfl).mp hparse
    obtain ⟨negative, values, hspan, hlimit, m, _, hm, hvalue⟩ := readInteger_eq_ok_iff.mp hread
    obtain ⟨sign, digits, rfl, hsign, hne, hdigits⟩ := spanInteger?_eq_some_iff.mp hspan
    -- the parts of the grammar are those that the readers have found
    cases hframed with
    | mk padding =>
      have hshort : digits.length ≤ 4300 := hdigits.length_eq.trans_le hlimit
      have hn : n = m := Option.some.inj (congrArg int? hvalue)
      rw [← hn, natOfDigits_eq_ofDigits] at hm
      exact .mk padding hspells hsign hdigits hne hshort hm h
  · rintro ⟨padding, name, leading, denotes, nonempty, short, value, range⟩
    obtain ⟨alphanum, alpha⟩ := Kind.Spells.isTag (k := .integer k) name
    -- nothing is trimmed off a sign and digits, so the body is found as it is
    have hink := isBlank_of_sign_digits leading denotes
    have hunbroken := fun h => Bool.false_ne_true ((hink '\n' h).symm.trans rfl)
    have hframed := Framed.mk padding alphanum alpha (isTrimmed_of_forall hink) hunbroken
    have hspan := spanInteger?_eq_some_iff.mpr ⟨_, _, rfl, leading, nonempty, denotes⟩
    have hlimit := denotes.length_eq.symm.trans_le short
    rw [← natOfDigits_eq_ofDigits] at value
    have hread := readInteger_eq_ok_iff.mpr ⟨_, _, hspan, hlimit, n, range, value, rfl⟩
    exact ⟨range, (parse_eq_ok_iff rfl).mpr ⟨_, _, hframed, name, hread⟩⟩

end Value

end StackMachine
