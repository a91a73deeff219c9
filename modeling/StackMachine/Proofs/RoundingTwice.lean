import Mathlib
import StackMachine.Proofs.IntegerPromotion
import StackMachine.Proofs.NumberNeighbours

/-!
# Rounding through a wider format

A rational that is rounded to a wider format first and then to the format itself mostly ends at the number
nearest to it. It does not if the first step leads to the middle of two numbers: the second step then
takes the one with the even significand, even if the rational was on the side of the other. That is the
only way to go wrong, because the middle of two neighbours is a number of the wider format, and rounding
does not cross it.

* **`Format.Refines`**, **`Format.Refines.representable_middle`**: wider formats with the middles.
* **`Binary.exists_neighbour`**: the number next to one, on either side.
* **`Binary.Preferred`**, **`Binary.exists_better`**: what a number loses against.
* **`Binary.MisroundedVia`**, **`Binary.isNearest_iff_not_misroundedVia`**: when the nearest number is
  missed.
-/

namespace StackMachine

/-- The wider format has the middles of neighbouring numbers too. -/
structure Format.Refines (wide fmt : Format) : Prop where
  embeds : Format.Embeds fmt wide
  precision : fmt.precision < wide.precision
  scale : fmt.scale < wide.scale

theorem Format.double_refines_single : Format.Refines .double .single :=
  ⟨Format.single_embeds_double, by decide, by decide⟩

namespace Format.Refines

variable {wide fmt : Format} {w : Nat}

/-- **The middle of two neighbours is a number of the wider format.** It has one digit more than
they have, and half their unit. -/
theorem representable_middle (h : wide.Refines fmt) (hw : fmt.Spaced w)
    (hbound : w + fmt.spacing w < 2 ^ fmt.bound) :
    wide.Representable ((w + (w + fmt.spacing w)) * 2 ^ (wide.scale - fmt.scale - 1)) := by
  -- twice the middle is an odd number of gaps, which takes one digit more
  have hsum : w + (w + fmt.spacing w)
      = (2 * fmt.significand w + 1) * 2 ^ (w.log2 + 1 - fmt.precision) := by
    have hmul := significand_mul hw
    rw [← spacing_eq, Nat.add_mul, Nat.mul_assoc, hmul]
    omega
  have hsignificand : 2 * fmt.significand w + 1 < 2 ^ wide.precision := by
    have hlt := significand_lt fmt w
    calc 2 * fmt.significand w + 1 < 2 ^ (fmt.precision + 1) := by rw [pow_succ]; omega
      _ ≤ 2 ^ wide.precision := Nat.pow_le_pow_right Nat.two_pos h.precision
  have hlt : (w + (w + fmt.spacing w)) * 2 ^ (wide.scale - fmt.scale - 1) < 2 ^ wide.bound := by
    have hscale := h.scale
    calc (w + (w + fmt.spacing w)) * 2 ^ (wide.scale - fmt.scale - 1)
        < 2 ^ (fmt.bound + 1) * 2 ^ (wide.scale - fmt.scale - 1) := by
          apply Nat.mul_lt_mul_of_pos_right _ (Nat.two_pow_pos _)
          rw [pow_succ]
          omega
      _ = 2 ^ (fmt.bound + (wide.scale - fmt.scale)) := by
          rw [← pow_add]
          congr 1
          omega
      _ ≤ 2 ^ wide.bound := Nat.pow_le_pow_right Nat.two_pos h.embeds.bound
  rw [hsum, Nat.mul_assoc, ← pow_add] at hlt ⊢
  exact representable_of_mul hsignificand hlt

end Format.Refines

namespace Binary

variable {wide fmt : Format} {x y : Binary fmt} {d : Binary wide} {a b c r : ℚ}

/-! ## Neighbours -/

theorem signed_of_neg {s : Bool} {u : Nat} (h : signed s u < 0) : signed s u = -(u : Int) := by
  cases s with
  | false => rw [signed_false] at h; omega
  | true => rfl

theorem signed_of_nonneg {s : Bool} {u : Nat} (h : 0 ≤ signed s u) : signed s u = u := by
  cases s with
  | false => rfl
  | true => rw [signed_true] at h ⊢; omega

/-- From a number to a larger one there is a neighbour on the way, also if the signs differ. The
two are a gap apart, and the gap is that of the one nearer to zero. -/
theorem exists_signed_neighbour (hp : 0 < fmt.precision) {s t : Bool} {u v : Nat}
    (hu : fmt.Representable u) (hv : fmt.Representable v) (hlt : signed s u < signed t v) :
    ∃ q v', fmt.Representable v' ∧ signed s u < signed q v' ∧ signed q v' ≤ signed t v
      ∧ ∃ w, fmt.Spaced w ∧ w + fmt.spacing w < 2 ^ fmt.bound
        ∧ signed s u + signed q v' = signed q (w + (w + fmt.spacing w)) := by
  by_cases hneg : signed s u < 0
  · -- the neighbour of a negative number is nearer to zero
    have hsu := signed_of_neg hneg
    obtain ⟨w, hw, hnext⟩ := Format.exists_prev hp (Format.spacing_dvd hu) (by omega)
    have hgap := Format.spacing_pos fmt w
    have hrep : fmt.Representable w := by
      refine ⟨?_, Nat.mod_eq_zero_of_dvd hw⟩
      exact lt_of_le_of_lt (by omega) hu.1
    have hle : signed true w ≤ signed t v := by
      cases t with
      | false => rw [signed_true, signed_false]; omega
      | true =>
        rw [signed_true, signed_true]
        by_contra hgt
        have hskip := Format.next_le hw (Format.spacing_dvd hv) (by omega)
        rw [hsu, signed_true] at hlt
        omega
    refine ⟨true, w, hrep, by rw [hsu, signed_true]; omega, hle, w, hw, by rw [hnext]; exact hu.1, ?_⟩
    rw [hsu, signed_true, signed_true]
    omega
  · -- otherwise it is a gap further away from zero
    have hsu := signed_of_nonneg (not_lt.mp hneg)
    have htv : signed t v = v := signed_of_nonneg (by omega)
    have hnext := Format.next_le (Format.spacing_dvd hu) (Format.spacing_dvd hv) (by omega)
    have hgap := Format.spacing_pos fmt u
    have hbound : u + fmt.spacing u < 2 ^ fmt.bound := lt_of_le_of_lt hnext hv.1
    have hrep : fmt.Representable (u + fmt.spacing u) :=
      ⟨hbound, Nat.mod_eq_zero_of_dvd (Format.spaced_next hp (Format.spacing_dvd hu))⟩
    refine ⟨false, u + fmt.spacing u, hrep, ?_, ?_, u, Format.spacing_dvd hu, hbound, ?_⟩
    · rw [hsu, signed_false]
      omega
    · rw [htv, signed_false]
      omega
    · rw [hsu, signed_false, signed_false]
      omega

/-- **The next number on the way to another**, and the middle before it, which the wider format
has. The middle is a witness in the wider format against everything further away. -/
theorem exists_neighbour (h : wide.Refines fmt) (hp : 0 < fmt.precision) (hx : x.quantity = .rational a)
    (hy : y.quantity = .rational b) (hlt : a < b) :
    ∃ (z : Binary fmt) (m : Binary wide) (b' : ℚ), z.quantity = .rational b' ∧ a < b' ∧ b' ≤ b
      ∧ m.quantity = .rational ((a + b') / 2) := by
  obtain ⟨s, u, hu, rfl, rfl⟩ := exists_finite hx
  obtain ⟨t, v, hv, rfl, rfl⟩ := exists_finite hy
  have hunit : (0 : ℚ) < 2 ^ fmt.scale := by positivity
  rw [div_lt_div_iff_of_pos_right hunit] at hlt
  obtain ⟨q, v', hv', hlow, hhigh, w, hw, hbound, hsum⟩ :=
    exists_signed_neighbour hp hu hv (by exact_mod_cast hlt)
  refine ⟨.finite q v' hv', .finite q _ (h.representable_middle hw hbound), _, rfl, ?_, ?_, ?_⟩
  · rw [div_lt_div_iff_of_pos_right hunit]
    exact_mod_cast hlow
  · rw [div_le_div_iff_of_pos_right hunit]
    exact_mod_cast hhigh
  · -- half of the sum, in the finer unit of the wider format
    have hscale : (2 : ℚ) ^ wide.scale = 2 ^ (wide.scale - fmt.scale - 1) * 2 * 2 ^ fmt.scale := by
      rw [← pow_succ, ← pow_add]
      congr 1
      have := h.scale
      omega
    have hsum' : (signed s u : ℚ) + signed q v' = signed q (w + (w + fmt.spacing w)) := by
      exact_mod_cast hsum
    rw [quantity, Quantity.rational.injEq, signed_mul, ← add_div, hsum', hscale]
    push_cast
    field_simp

/-! ## The way through the wider format -/

/-- A conversion is a rounding, so it gives the nearest number of the target format. -/
theorem isNearest_convert {source target : Format} {x : Binary source} (hp : 2 ≤ target.precision)
    (hfinite : (convert target x).isFinite = true) (hxa : x.quantity = .rational a) :
    (convert target x).IsNearest a := by
  obtain ⟨s, u, hu, rfl, rfl⟩ := exists_finite hxa
  have hunit : (2 : ℚ) ^ target.scale ≠ 0 := by positivity
  have hnearest := isNearest_ofUnits hp (Nat.two_pow_pos source.scale) s hfinite
  have hvalue : (signed s (u * Nat.pow 2 target.scale) : ℚ) / (2 ^ source.scale : Nat) / 2 ^ target.scale
      = signed s u / 2 ^ source.scale := by
    rw [signed_mul, Nat.pow_eq]
    push_cast
    field_simp
  rwa [hvalue] at hnearest

theorem significand_neg (x : Binary fmt) : x.neg.significand = x.significand := by
  cases x <;> rfl

/-- Rounding is symmetric around zero, so what is proved on one side of a number holds on the
other. -/
theorem IsNearest.neg (h : x.IsNearest r) : x.neg.IsNearest (-r) := by
  obtain ⟨a, ha, hnear⟩ := h
  refine ⟨-a, quantity_neg ha, ?_⟩
  intro y b hb
  have hflip (p : ℚ) : |-r - p| = |r - -p| := by
    rw [← abs_neg]
    congr 1
    ring
  have hy := hnear y.neg (-b) (quantity_neg hb)
  rw [significand_neg, hflip, hflip, neg_neg]
  exact ⟨hy.1, fun htie hne => hy.2 htie fun heq => hne (neg_eq_iff_eq_neg.mp heq)⟩

/-- A rational `b` that is preferred to the number `x` at `a`: it is nearer, or it is another one and as
near while the significand of `x` is odd. -/
def Preferred (x : Binary fmt) (a b r : ℚ) : Prop :=
  |r - b| < |r - a| ∨ |r - b| = |r - a| ∧ b ≠ a ∧ ¬Even x.significand

theorem Preferred.le (h : x.Preferred a b r) : |r - b| ≤ |r - a| := by
  rcases h with hlt | ⟨heq, -, -⟩
  · exact hlt.le
  · exact heq.le

theorem Preferred.ne (h : x.Preferred a b r) : b ≠ a := by
  rcases h with hlt | ⟨-, hne, -⟩
  · rintro rfl
    exact lt_irrefl _ hlt
  · exact hne

/-- The same of being preferred. -/
theorem Preferred.neg (h : x.Preferred a b r) : x.neg.Preferred (-a) (-b) (-r) := by
  have hflip (p : ℚ) : |-r - -p| = |r - p| := by
    rw [← abs_neg]
    congr 1
    ring
  unfold Preferred
  rwa [hflip, hflip, significand_neg, neg_inj.ne]

/-- What is not nearest has a better number: a nearer one, or another one that is as near although
the significand of the first is not even. -/
theorem exists_better (hx : ¬x.IsNearest r) (hxa : x.quantity = .rational a) :
    ∃ (y : Binary fmt) (b : ℚ), y.quantity = .rational b ∧ x.Preferred a b r := by
  by_contra hnone
  apply hx
  refine ⟨a, hxa, fun y b hb => ?_⟩
  have hle : |r - a| ≤ |r - b| := not_lt.mp fun hlt => hnone ⟨y, b, hb, .inl hlt⟩
  refine ⟨hle, fun htie hne => ?_⟩
  by_contra hodd
  exact hnone ⟨y, b, hb, .inr ⟨htie.symm, hne, hodd⟩⟩

/-- The nearest number is better than every number that is not nearest. The hypothesis that they
differ excludes the two zeros. -/
theorem IsNearest.better (hy : y.IsNearest r) (hyb : y.quantity = .rational b) (hx : ¬x.IsNearest r)
    (hxa : x.quantity = .rational a) (hne : b ≠ a) : x.Preferred a b r := by
  obtain ⟨z, e, hz, hbetter⟩ := exists_better hx hxa
  obtain ⟨b', hb', hnear⟩ := hy
  obtain rfl : b' = b := Quantity.rational.inj (hb'.symm.trans hyb)
  have hle := (hnear z e hz).1
  rcases hbetter with hlt | ⟨heq, -, hodd⟩
  · exact .inl (hle.trans_lt hlt)
  · rcases lt_or_eq_of_le (hle.trans heq.le) with hlt | htie
    · exact .inl hlt
    · exact .inr ⟨htie, hne, hodd⟩

/-- The number of the wider format that is nearest to a rational lies halfway between two numbers, and
the rational lies on the side of the second one. -/
def MisroundedVia (wide : Format) (x y : Binary fmt) (r : ℚ) : Prop :=
  ∃ (d : Binary wide) (a b c : ℚ), d.IsNearest r ∧ d.quantity = .rational c ∧ x.quantity = .rational a
    ∧ y.quantity = .rational b ∧ 2 * c = a + b ∧ 0 < (r - c) * (b - c)

protected theorem neg_neg (x : Binary fmt) : x.neg.neg = x := by
  cases x <;> simp [neg]

theorem MisroundedVia.neg (h : MisroundedVia wide x y r) : MisroundedVia wide x.neg y.neg (-r) := by
  obtain ⟨d, a, b, c, hd, hdc, hxa, hyb, hmiddle, hside⟩ := h
  refine ⟨d.neg, -a, -b, -c, hd.neg, quantity_neg hdc, quantity_neg hxa, quantity_neg hyb, ?_, ?_⟩
  · linarith
  · linarith

/-- If the number after two roundings is below a better one, the number in between is the middle
of the first and its neighbour. It cannot be past the middle, as the second rounding would go up
from there, and it cannot be before it, as the middle would be nearer to the rational. -/
theorem middle_of_better (h : wide.Refines fmt) (hp : 0 < fmt.precision) (hd : d.IsNearest r)
    (hdc : d.quantity = .rational c) (hx : x.IsNearest c) (hxa : x.quantity = .rational a)
    (hyb : y.quantity = .rational b) (hlt : a < b) (hbetter : x.Preferred a b r) :
    ∃ (z : Binary fmt) (b' : ℚ), z.quantity = .rational b' ∧ a < b' ∧ b' ≤ b ∧ 2 * c = a + b' ∧ c < r
      ∧ Even x.significand := by
  obtain ⟨z, m, b', hz, hlow, hhigh, hm⟩ := exists_neighbour h hp hxa hyb hlt
  obtain ⟨a', ha', hxnear⟩ := hx
  obtain rfl : a' = a := Quantity.rational.inj (ha'.symm.trans hxa)
  obtain ⟨c', hc', hdnear⟩ := hd
  obtain rfl : c' = c := Quantity.rational.inj (hc'.symm.trans hdc)
  -- the rational is not below the middle, and what it is rounded to is not above it
  have hr : a' + b ≤ 2 * r := (abs_sub_le_iff_middle_le hlt).mp hbetter.le
  have hc : 2 * c' ≤ a' + b' := (abs_sub_le_iff_le_middle hlow).mp (hxnear z b' hz).1
  have hmiddle : 2 * c' = a' + b' := by
    by_contra hne
    have hbelow : c' < (a' + b') / 2 := by
      have := lt_of_le_of_ne hc hne
      linarith
    have hnear := (abs_sub_le_iff_le_middle hbelow).mp (hdnear m _ hm).1
    linarith
  have htie : |c' - a'| = |c' - b'| := by
    apply le_antisymm
    · exact (abs_sub_le_iff_le_middle hlow).mpr hc
    · exact (abs_sub_le_iff_middle_le hlow).mpr hmiddle.ge
  have heven := (hxnear z b' hz).2 htie hlow.ne'
  refine ⟨z, b', hz, hlow, hhigh, hmiddle, ?_, heven⟩
  by_contra hge
  -- the rational is the middle itself, where the even number is right
  rcases hbetter with hnearer | ⟨-, -, hodd⟩
  · refine absurd hnearer (not_lt.mpr ((abs_sub_le_iff_le_middle hlt).mpr ?_))
    linarith
  · exact hodd heven

/-- **The only way to go wrong.** If the better number is the nearest one, the wrong turn was taken in the
middle between the two. -/
theorem exists_misroundedVia (h : wide.Refines fmt) (hp : 0 < fmt.precision) (hd : d.IsNearest r)
    (hdc : d.quantity = .rational c) (hx : x.IsNearest c) (hxa : x.quantity = .rational a)
    (hyb : y.quantity = .rational b) (hbetter : x.Preferred a b r) :
    ∃ z, MisroundedVia wide x z r ∧ Even x.significand ∧ (y.IsNearest r → z.quantity = y.quantity) := by
  wlog hlt : a < b generalizing x y d a b c r
  · -- the same with all signs changed
    obtain ⟨z, hz, heven, heq⟩ := this hd.neg (quantity_neg hdc) hx.neg (quantity_neg hxa)
      (quantity_neg hyb) hbetter.neg (neg_lt_neg (lt_of_le_of_ne (not_lt.mp hlt) hbetter.ne))
    refine ⟨z.neg, ?_, by rwa [significand_neg] at heven, fun hy => ?_⟩
    · have hback := hz.neg
      rwa [Binary.neg_neg, neg_neg] at hback
    · have hback := quantity_neg ((heq hy.neg).trans (quantity_neg hyb))
      rw [hback, hyb, neg_neg]
  obtain ⟨z, b', hz, hlow, hhigh, hmiddle, hcr, heven⟩ := middle_of_better h hp hd hdc hx hxa hyb hlt hbetter
  refine ⟨z, ⟨d, a, b', c, hd, hdc, hxa, hz, hmiddle, ?_⟩, heven, fun hy => ?_⟩
  · exact mul_pos (by linarith) (by linarith)
  · rw [hz, hyb, Quantity.rational.injEq]
    by_contra hne
    have hbelow : b' < b := lt_of_le_of_ne hhigh hne
    -- a neighbour that the rational lies beyond would have stopped the first step
    obtain ⟨b₂, hb₂, hynear⟩ := hy
    obtain rfl : b₂ = b := Quantity.rational.inj (hb₂.symm.trans hyb)
    have hbeyond := (abs_sub_le_iff_middle_le hbelow).mp (hynear z b' hz).1
    obtain ⟨c', hc', hdnear⟩ := hd
    obtain rfl : c' = c := Quantity.rational.inj (hc'.symm.trans hdc)
    have hstop := hdnear (convert wide z) b' (by rw [h.embeds.quantity_convert, hz])
    have hback := (abs_sub_le_iff_le_middle (by linarith : c' < b')).mp hstop.1
    linarith

/-- **When the nearest number is missed**: the nearest number of the wider format lies halfway to another
number, and the rational on the side of that one. -/
theorem isNearest_iff_not_misroundedVia (h : wide.Refines fmt) (hp : 0 < fmt.precision)
    (hd : d.IsNearest r) (hdc : d.quantity = .rational c) (hx : x.IsNearest c) :
    x.IsNearest r ↔ ¬∃ y, MisroundedVia wide x y r := by
  constructor
  · rintro ⟨a, hxa, hnear⟩ ⟨y, -, a', b, c', -, -, hxa', hyb, hmiddle, hside⟩
    obtain rfl : a' = a := Quantity.rational.inj (hxa'.symm.trans hxa)
    have hle := sq_le_sq.mpr (hnear y b hyb).1
    rw [show a' = 2 * c' - b by linarith] at hle
    linarith
  · intro hnone
    by_contra hnot
    obtain ⟨a, hxa, -⟩ := id hx
    obtain ⟨y, b, hyb, hbetter⟩ := exists_better hnot hxa
    obtain ⟨z, hz, -, -⟩ := exists_misroundedVia h hp hd hdc hx hxa hyb hbetter
    exact hnone ⟨z, hz⟩

end Binary

end StackMachine
