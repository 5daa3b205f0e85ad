/-
Numbers and rounding. A finite word denotes a rational number, ± significand · 2^exponent. A rational number rounds to a
word if the word's number is nearest to it among all numbers of 53 binary digits, and if the word's significand is even
where another such number is as near. The numbers it is compared with have no bound on their size, so what is too large
for every word rounds to none.

- `size_eq_div`, `isIntegral_iff`: the number of a word as the ratio that its text is made of;
- `same_iff`: numbers compare as equal exactly if they are;
- `RoundsTo`: rounding to nearest, a half to even;
- `exists_between`: between two different numbers with even significands there is a third one;
- `RoundsTo.unique`: so no number rounds to two.
-/
import Mathlib.Algebra.Order.Field.Power
import Mathlib.Data.Rat.Cast.Order
import Mathlib.Tactic
import StyleTree.Double

namespace StyleTree

/-! ## Powers -/

theorem exp2_eq (n : Nat) : exp2 n = 2 ^ n := rfl

theorem exp10_eq (n : Nat) : exp10 n = 10 ^ n := rfl

/-- a power with an integer exponent, in two natural ones -/
theorem pow_toNat {b : ℚ} (hb : b ≠ 0) (z : ℤ) : b ^ z.toNat = b ^ z * b ^ (-z).toNat := by
  rcases Int.le_total 0 z with hz | hz
  · have hneg : (-z).toNat = 0 := by omega
    rw [hneg, pow_zero, mul_one, ← zpow_natCast, Int.toNat_of_nonneg hz]
  · have hpos : z.toNat = 0 := by omega
    rw [hpos, pow_zero, ← zpow_natCast, Int.toNat_of_nonneg (by omega), ← zpow_add₀ hb, Int.add_right_neg, zpow_zero]

/-- a power of two as a multiple of a smaller one -/
theorem zpow_two_split {e f : ℤ} (h : e ≤ f) : ∃ n : ℕ, (2 : ℚ) ^ f = 2 ^ n * 2 ^ e := by
  refine ⟨(f - e).toNat, ?_⟩
  rw [← zpow_natCast, Int.toNat_of_nonneg (by omega), ← zpow_add₀ two_ne_zero]
  congr 1
  omega

namespace Double

/-! ## The fields of a word -/

theorem fraction_lt (x : Double) : x.fraction < 2 ^ 52 := Nat.mod_lt _ (by decide)

theorem significand_lt (x : Double) : x.significand < 2 ^ 53 := by
  have hfraction := x.fraction_lt
  unfold significand
  rw [exp2_eq]
  split <;> omega

theorem exponent_ge (x : Double) : -1074 ≤ x.exponent := by
  unfold exponent
  omega

theorem isNaN_of_isFinite {x : Double} (hx : x.isFinite = true) : x.isNaN = false := by
  rw [isFinite, decide_eq_true_iff] at hx
  rw [isNaN, decide_eq_false_iff_not]
  omega

/-- above the least exponent the leading bit is implied -/
theorem biased_of_exponent {x : Double} (h : -1074 < x.exponent) : 1 < x.biased := by
  unfold exponent at h
  omega

theorem significand_of_biased {x : Double} (h : 1 < x.biased) : x.significand = 2 ^ 52 + x.fraction := by
  rw [significand, if_neg (by omega), exp2_eq]

/-- the significand and the exponent make up the word but for its sign: the leading bit of the one carries into the
other -/
theorem magnitude_eq (x : Double) : (x.magnitude : ℤ) = (x.exponent + 1074) * 2 ^ 52 + x.significand := by
  have hsplit : x.magnitude = x.biased * 2 ^ 52 + x.fraction := by
    rw [biased, fraction, exp2_eq, Nat.mul_comm]
    exact (Nat.div_add_mod _ _).symm
  rw [hsplit, exponent, significand, exp2_eq]
  split <;> push_cast <;> omega

/-- a zero is a word without significand -/
theorem significand_eq_zero_iff (x : Double) : x.significand = 0 ↔ x.isZero = true := by
  have hmagnitude := x.magnitude_eq
  have hexponent := x.exponent_ge
  rw [isZero, decide_eq_true_iff]
  constructor
  · intro h
    by_contra hne
    have hbiased : 1 < x.biased := biased_of_exponent (by omega)
    rw [significand_of_biased hbiased] at h
    omega
  · intro h
    omega

/-! ## Values -/

/-- the size of the number that a finite word denotes -/
def size (x : Double) : ℚ := x.significand * 2 ^ x.exponent

/-- the number that a finite word denotes -/
def value (x : Double) : ℚ := if x.negative then -x.size else x.size

theorem size_nonneg (x : Double) : 0 ≤ x.size := mul_nonneg (Nat.cast_nonneg _) (zpow_nonneg (by norm_num) _)

theorem size_eq_zero_iff (x : Double) : x.size = 0 ↔ x.isZero = true := by
  rw [← significand_eq_zero_iff, size, mul_eq_zero, Nat.cast_eq_zero]
  exact or_iff_left (zpow_ne_zero _ two_ne_zero)

theorem value_eq_zero_iff (x : Double) : x.value = 0 ↔ x.isZero = true := by
  rw [← size_eq_zero_iff, value]
  split
  · exact neg_eq_zero
  · exact Iff.rfl

/-- the size of a number is the ratio of its numerator and its denominator -/
theorem size_eq_div (x : Double) : x.size = x.numerator / x.denominator := by
  have hden : (x.denominator : ℚ) = 2 ^ (-x.exponent).toNat := by rw [denominator, exp2_eq]; push_cast; rfl
  have hnum : (x.numerator : ℚ) = x.significand * (2 ^ x.exponent * 2 ^ (-x.exponent).toNat) := by
    rw [numerator, exp2_eq, ← pow_toNat two_ne_zero]
    push_cast
    rfl
  rw [hden, hnum, ← mul_assoc, mul_div_cancel_right₀ _ (pow_ne_zero _ two_ne_zero), size]

theorem denominator_pos (x : Double) : 0 < x.denominator := Nat.pow_pos (by decide)

theorem isIntegral_dvd {x : Double} (hx : x.isFinite = true) :
    x.isIntegral = true ↔ x.denominator ∣ x.numerator := by
  rw [isIntegral, decide_eq_true_iff, and_iff_right hx, ← Nat.dvd_iff_mod_eq_zero, numerator, denominator]
  -- either the numerator is the significand, or the denominator is one
  rcases Int.le_total 0 x.exponent with h | h
  · have hone : (-x.exponent).toNat = 0 := by omega
    rw [hone]
    simp [exp2_eq]
  · have hone : x.exponent.toNat = 0 := by omega
    rw [hone]
    simp [exp2_eq]

/-- a number without a fractional part is the integer part of its size -/
theorem size_of_isIntegral {x : Double} (hx : x.isFinite = true) (h : x.isIntegral = true) : x.size = x.floor := by
  have hden : (x.denominator : ℚ) ≠ 0 := Nat.cast_ne_zero.2 x.denominator_pos.ne'
  rw [size_eq_div, floor, Nat.cast_div ((isIntegral_dvd hx).1 h) hden]

/-- the test for integers finds the words that denote integers -/
theorem isIntegral_iff {x : Double} (hx : x.isFinite = true) : x.isIntegral = true ↔ ∃ z : ℤ, x.value = z := by
  have hsign : (∃ z : ℤ, x.value = z) ↔ ∃ z : ℤ, x.size = z := by
    unfold value
    split
    · constructor
      · rintro ⟨z, hz⟩
        exact ⟨-z, by rw [Int.cast_neg, ← hz, neg_neg]⟩
      · rintro ⟨z, hz⟩
        exact ⟨-z, by rw [Int.cast_neg, hz]⟩
    · exact Iff.rfl
  rw [hsign]
  constructor
  · intro h
    exact ⟨x.floor, size_of_isIntegral hx h⟩
  · rintro ⟨z, hz⟩
    have hden : (x.denominator : ℚ) ≠ 0 := Nat.cast_ne_zero.2 x.denominator_pos.ne'
    rw [size_eq_div, div_eq_iff hden] at hz
    have hdvd : (x.denominator : ℤ) ∣ x.numerator := ⟨z, by rw [mul_comm]; exact_mod_cast hz⟩
    exact (isIntegral_dvd hx).2 (Int.natCast_dvd_natCast.1 hdvd)

/-! ## Equality -/

section Equality

variable {x y : Double}

/-- of two words of one size the first has no smaller exponent: its significand would be too long -/
theorem exponent_le_of_size_eq (h : x.size = y.size) : y.exponent ≤ x.exponent := by
  by_contra hlt
  have hexponent := x.exponent_ge
  have hlong : 2 ^ 52 ≤ y.significand := by
    rw [significand_of_biased (biased_of_exponent (by omega))]
    omega
  obtain ⟨n, hn⟩ := zpow_two_split (e := x.exponent + 1) (f := y.exponent) (by omega)
  rw [size, size, hn, zpow_add_one₀ two_ne_zero] at h
  have hcast : (x.significand : ℚ) = y.significand * (2 ^ n * 2) :=
    mul_right_cancel₀ (zpow_ne_zero x.exponent two_ne_zero) (by rw [h]; ring)
  have hnat : x.significand = y.significand * (2 ^ n * 2) := by exact_mod_cast hcast
  have hbound : 2 ^ 52 * (1 * 2) ≤ y.significand * (2 ^ n * 2) :=
    Nat.mul_le_mul hlong (Nat.mul_le_mul_right 2 Nat.one_le_two_pow)
  have hshort := x.significand_lt
  omega

/-- the size of a number determines its word but for the sign -/
theorem magnitude_of_size_eq (h : x.size = y.size) : x.magnitude = y.magnitude := by
  have hexponent : x.exponent = y.exponent := le_antisymm (exponent_le_of_size_eq h.symm) (exponent_le_of_size_eq h)
  have hsignificand : x.significand = y.significand := by
    rw [size, size, hexponent] at h
    exact_mod_cast mul_right_cancel₀ (zpow_ne_zero _ two_ne_zero) h
  have hx := x.magnitude_eq
  rw [hexponent, hsignificand, ← y.magnitude_eq] at hx
  exact_mod_cast hx

theorem bits_toNat (x : Double) : x.bits.toNat = (if x.negative then 2 ^ 63 else 0) + x.magnitude := by
  have hlt := x.bits.toNat_lt
  rw [negative, magnitude, exp2_eq]
  by_cases h : 2 ^ 63 ≤ x.bits.toNat
  · rw [decide_eq_true h, if_pos rfl]
    omega
  · rw [decide_eq_false h, if_neg (by decide)]
    omega

/-- a number determines its word, except that there are two zeros -/
theorem bits_of_value_eq (h : x.value = y.value) (h0 : x.value ≠ 0) : x.bits = y.bits := by
  have hx := x.size_nonneg
  have hy := y.size_nonneg
  obtain ⟨hsign, hsize⟩ : x.negative = y.negative ∧ x.size = y.size := by
    unfold value at h h0
    generalize x.negative = a, y.negative = b at h h0 ⊢
    -- of two numbers with different signs only zeros are equal
    have hzero : a ≠ b → x.size = 0 := by
      cases a <;> cases b <;> simp at h ⊢ <;> linarith
    have hsign : a = b := by
      by_contra hne
      rw [hzero hne, neg_zero, ite_self] at h0
      exact h0 rfl
    subst hsign
    refine ⟨rfl, ?_⟩
    split at h
    · exact neg_injective h
    · exact h
  rw [← UInt64.toNat_inj, bits_toNat, bits_toNat, hsign, magnitude_of_size_eq hsize]

/-- **Numbers are equal if what they denote is.** -/
theorem same_iff (hx : x.isFinite = true) (hy : y.isFinite = true) : x.same y = true ↔ x.value = y.value := by
  rw [same, isNaN_of_isFinite hx, isNaN_of_isFinite hy, Bool.not_false, Bool.true_and, Bool.true_and, Bool.or_eq_true,
    beq_iff_eq, Bool.and_eq_true, ← value_eq_zero_iff, ← value_eq_zero_iff]
  constructor
  · rintro (hbits | ⟨hx, hy⟩)
    · have hword : x = y := congrArg Double.mk hbits
      rw [hword]
    · rw [hx, hy]
  · intro h
    by_cases h0 : x.value = 0
    · exact Or.inr ⟨h0, h ▸ h0⟩
    · exact Or.inl (bits_of_value_eq h h0)

end Equality

/-! ## Rounding -/

/-- a number of 53 binary digits, none of them below the least place; large ones have no bound -/
def Representable (c : ℚ) : Prop := ∃ m e : ℤ, |m| < 2 ^ 53 ∧ -1074 ≤ e ∧ c = m * 2 ^ e

/-- the word is the finite one that a number rounds to: no representable number is nearer, and if another one is as near,
the significand of the word is even -/
structure RoundsTo (q : ℚ) (x : Double) : Prop where
  finite : x.isFinite = true
  nearest : ∀ c, Representable c → |q - x.value| ≤ |q - c|
  even : ∀ c, Representable c → c ≠ x.value → |q - x.value| = |q - c| → x.significand % 2 = 0

theorem Representable.neg {c : ℚ} (h : Representable c) : Representable (-c) := by
  obtain ⟨m, e, hm, he, rfl⟩ := h
  exact ⟨-m, e, by rwa [abs_neg], he, by push_cast; ring⟩

/-- a significand with its sign -/
def factor (x : Double) : ℤ := if x.negative then -x.significand else x.significand

theorem value_eq_factor (x : Double) : x.value = x.factor * 2 ^ x.exponent := by
  unfold value factor size
  split
  · push_cast
    ring
  · push_cast
    rfl

theorem abs_factor_lt (x : Double) : |x.factor| < 2 ^ 53 := by
  have hlt := x.significand_lt
  rw [abs_lt]
  unfold factor
  split <;> omega

theorem value_representable (x : Double) : Representable x.value :=
  ⟨x.factor, x.exponent, x.abs_factor_lt, x.exponent_ge, x.value_eq_factor⟩

/-- **Even numbers are no neighbours.** Between two different numbers with even factors there is a third one. -/
theorem exists_between {a b e f : ℤ} (ha : |a| < 2 ^ 53) (he : -1074 ≤ e) (hb : |b| < 2 ^ 53) (hf : -1074 ≤ f)
    (ha2 : 2 ∣ a) (hb2 : 2 ∣ b) (h : (a : ℚ) * 2 ^ e < b * 2 ^ f) :
    ∃ c, Representable c ∧ (a : ℚ) * 2 ^ e < c ∧ c < b * 2 ^ f := by
  have hpos : ∀ z : ℤ, (0 : ℚ) < 2 ^ z := fun z => zpow_pos two_pos z
  by_contra hno
  push Not at hno
  -- the next number above the one, and the next below the other
  have habove : (b : ℚ) * 2 ^ f ≤ (a + 1 : ℤ) * 2 ^ e := by
    refine hno _ ⟨a + 1, e, by rw [abs_lt] at ha ⊢; omega, he, rfl⟩ ?_
    exact mul_lt_mul_of_pos_right (by exact_mod_cast Int.lt_succ a) (hpos e)
  have hbelow : ((b - 1 : ℤ) : ℚ) * 2 ^ f ≤ a * 2 ^ e := by
    by_contra hlt
    have hup := hno _ ⟨b - 1, f, by rw [abs_lt] at hb ⊢; omega, hf, rfl⟩ (not_le.1 hlt)
    have hdown : ((b - 1 : ℤ) : ℚ) * 2 ^ f < b * 2 ^ f :=
      mul_lt_mul_of_pos_right (by exact_mod_cast Int.sub_one_lt_of_le le_rfl) (hpos f)
    exact absurd hup (not_le.2 hdown)
  -- on the finer of the two grids they differ by one step
  rcases Int.le_total e f with hef | hef
  · obtain ⟨n, hn⟩ := zpow_two_split hef
    rw [hn, ← mul_assoc] at habove h
    have hle : b * 2 ^ n ≤ a + 1 := by exact_mod_cast le_of_mul_le_mul_right habove (hpos e)
    have hlt : a < b * 2 ^ n := by exact_mod_cast lt_of_mul_lt_mul_right h (hpos e).le
    have heven : 2 ∣ b * 2 ^ n := hb2.mul_right _
    omega
  · obtain ⟨n, hn⟩ := zpow_two_split hef
    rw [hn, ← mul_assoc] at hbelow h
    have hle : b - 1 ≤ a * 2 ^ n := by exact_mod_cast le_of_mul_le_mul_right hbelow (hpos f)
    have hlt : a * 2 ^ n < b := by exact_mod_cast lt_of_mul_lt_mul_right h (hpos f).le
    have heven : 2 ∣ a * 2 ^ n := ha2.mul_right _
    omega

theorem two_dvd_factor {x : Double} (h : x.significand % 2 = 0) : 2 ∣ x.factor := by
  unfold factor
  split <;> omega

/-- of two nearest numbers, one above the other, not both have even significands -/
theorem RoundsTo.value_le {q : ℚ} {x y : Double} (hx : RoundsTo q x) (hy : RoundsTo q y) : y.value ≤ x.value := by
  by_contra hle
  have hlt : x.value < y.value := not_le.1 hle
  have hsame : |q - x.value| = |q - y.value| :=
    le_antisymm (hx.nearest _ y.value_representable) (hy.nearest _ x.value_representable)
  have hx2 := two_dvd_factor (hx.even _ y.value_representable hlt.ne' hsame)
  have hy2 := two_dvd_factor (hy.even _ x.value_representable hlt.ne hsame.symm)
  have hbetween := exists_between x.abs_factor_lt x.exponent_ge y.abs_factor_lt y.exponent_ge hx2 hy2
  rw [← value_eq_factor, ← value_eq_factor] at hbetween
  obtain ⟨c, hc, hxc, hcy⟩ := hbetween hlt
  -- the number lies in the middle of the two, so a third one between them is nearer
  have hmiddle : q - x.value = y.value - q := by
    rcases abs_eq_abs.1 hsame with h | h
    · linarith
    · linarith
  have hnear := hx.nearest c hc
  rw [abs_of_pos (by linarith : 0 < q - x.value)] at hnear
  have hcloser : |q - c| < q - x.value := abs_lt.2 ⟨by linarith, by linarith⟩
  exact absurd hnear (not_le.2 hcloser)

/-- **Rounding is unique.** -/
theorem RoundsTo.unique {q : ℚ} {x y : Double} (hx : RoundsTo q x) (hy : RoundsTo q y) : x.value = y.value :=
  le_antisymm (hy.value_le hx) (hx.value_le hy)

end Double

end StyleTree
