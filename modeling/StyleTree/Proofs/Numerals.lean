/-
The texts of numbers. A numeral has a sign, digits before the point and digits behind it, and there is no digit or sign
in it that could be left out. The text of a finite number is such a numeral:

- of an integer, whatever its size, the numeral that denotes it;
- of any other number, a numeral with a point that rounds to it.

A numeral can be read off its text (`Numeral.text_injective`), so the text of a number tells which number it is.
-/
import StyleTree.Double.Text
import StyleTree.Proofs.Equality
import StyleTree.Proofs.Shortest

namespace StyleTree

namespace Decimal

/-! ## Figures -/

theorem figures_isDigit {n : Nat} {c : Char} (hc : c ∈ figures n) : c.isDigit = true :=
  Nat.isDigit_of_mem_toDigits (by decide) (by decide) hc

theorem figures_ne_nil (n : Nat) : figures n ≠ [] := Nat.toDigits_ne_nil

theorem ofFigures_figures (n : Nat) : ofFigures (figures n) = n := Nat.ofDigitChars_toDigits (by decide) (by decide)

theorem ofFigures_append (ds es : List Char) :
    ofFigures (ds ++ es) = 10 ^ es.length * ofFigures ds + ofFigures es :=
  (Nat.ofDigitChars_append 0).trans Nat.ofDigitChars_eq_ofDigitChars_zero

theorem ofFigures_zeros (k : Nat) : ofFigures (List.replicate k '0') = 0 :=
  Nat.ofDigitChars_replicate_zero.trans (Nat.mul_zero _)

theorem digitChar_eq_zero {d : Nat} (hd : d < 10) (h : Nat.digitChar d = '0') : d = 0 := by
  have hcode := Nat.toNat_digitChar_of_lt_ten hd
  rw [h] at hcode
  simp at hcode
  omega

/-- the digits of a number other than zero start with none -/
theorem figures_head {n : Nat} (hn : n ≠ 0) : (figures n).head? ≠ some '0' := by
  induction n using Nat.strong_induction_on with
  | _ n ih =>
    rcases Nat.lt_or_ge n 10 with hlt | hge
    · rw [figures, Nat.toDigits_of_lt_base hlt]
      intro h
      exact hn (digitChar_eq_zero hlt (Option.some.inj h))
    · rw [figures, Nat.toDigits_of_base_le (by decide) hge, List.head?_append_of_ne_nil _ Nat.toDigits_ne_nil]
      exact ih (n / 10) (by omega) (by omega)

theorem figures_getLast (n : Nat) : (figures n).getLast? = some (Nat.digitChar (n % 10)) := by
  rcases Nat.lt_or_ge n 10 with hlt | hge
  · rw [figures, Nat.toDigits_of_lt_base hlt, Nat.mod_eq_of_lt hlt]
    rfl
  · rw [figures, Nat.toDigits_of_base_le (by decide) hge, List.getLast?_concat]

/-! ## Points -/

section Pointed

variable (ds : List Char) (places : Nat)

/-- digits with zeros in front, so that at least one stands before the point -/
def padded : List Char := List.replicate (places + 1 - ds.length) '0' ++ ds

/-- the digits before the point -/
def ahead : List Char := (padded ds places).take ((padded ds places).length - places)

/-- the digits behind the point -/
def behind : List Char := (padded ds places).drop ((padded ds places).length - places)

theorem pointed_eq : pointed ds places = ahead ds places ++ '.' :: behind ds places := rfl

theorem ahead_append_behind : ahead ds places ++ behind ds places = padded ds places := List.take_append_drop _ _

theorem padded_length : (padded ds places).length = max (places + 1) ds.length := by
  rw [padded, List.length_append, List.length_replicate]
  omega

theorem ahead_length : (ahead ds places).length = max 1 (ds.length - places) := by
  rw [ahead, List.length_take, padded_length]
  omega

theorem behind_length : (behind ds places).length = places := by
  rw [behind, List.length_drop, padded_length]
  omega

theorem padded_isDigit {ds : List Char} (h : ∀ c ∈ ds, c.isDigit = true) :
    ∀ c ∈ padded ds places, c.isDigit = true := by
  intro c hc
  rcases List.mem_append.1 hc with hc | hc
  · rw [List.eq_of_mem_replicate hc]
    rfl
  · exact h c hc

/-- the zeros in front count for nothing -/
theorem ofFigures_padded : ofFigures (padded ds places) = ofFigures ds := by
  rw [padded, ofFigures_append, ofFigures_zeros, Nat.mul_zero, Nat.zero_add]

theorem ofFigures_pointed :
    (ofFigures (ahead ds places) : ℚ) + ofFigures (behind ds places) / 10 ^ places = ofFigures ds / 10 ^ places := by
  have hsum := ofFigures_append (ahead ds places) (behind ds places)
  rw [ahead_append_behind, ofFigures_padded, behind_length] at hsum
  rw [hsum]
  push_cast
  field_simp

/-- a zero before the point stands there alone, if the digits start with none -/
theorem ahead_head {ds : List Char} (h : ds.head? ≠ some '0') (h0 : (ahead ds places).head? = some '0') :
    ahead ds places = ['0'] := by
  obtain ⟨cs, hcs⟩ := List.head?_eq_some_iff.1 h0
  have hlength := ahead_length ds places
  rw [hcs, List.length_cons] at hlength
  rcases Nat.lt_or_ge places ds.length with hlt | hge
  · have hbare : padded ds places = ds := by
      rw [padded, Nat.sub_eq_zero_of_le (by omega), List.replicate_zero, List.nil_append]
    rw [ahead, hbare, List.head?_take, if_neg (by omega)] at h0
    exact absurd h0 h
  · obtain rfl : cs = [] := List.length_eq_zero_iff.1 (by omega)
    exact hcs

theorem behind_getLast {ds : List Char} (hds : ds ≠ []) (hplaces : 0 < places) :
    (behind ds places).getLast? = ds.getLast? := by
  have hlength := padded_length ds places
  rw [behind, List.getLast?_drop, if_neg (by omega), padded, List.getLast?_append_of_ne_nil _ hds]

end Pointed

end Decimal

/-! ## Numerals -/

/-- a numeral in positional form: no zero in front but right before the point, none at the end behind it, and no sign
before a lone zero -/
@[ext]
structure Numeral where
  negative : Bool
  whole : List Char
  fraction : List Char
  whole_isDigit : ∀ c ∈ whole, c.isDigit = true
  fraction_isDigit : ∀ c ∈ fraction, c.isDigit = true
  whole_ne_nil : whole ≠ []
  leading : whole.head? = some '0' → whole = ['0']
  trailing : fraction.getLast? ≠ some '0'
  unsigned : whole = ['0'] → fraction = [] → negative = false

namespace Numeral

/-- the digits behind the point, with the point if there are any -/
def tail (n : Numeral) : List Char := if n.fraction = [] then [] else '.' :: n.fraction

/-- a sign if there is one, and the digits -/
def text (n : Numeral) : String := String.ofList ((if n.negative then ['-'] else []) ++ (n.whole ++ n.tail))

/-- the number that a numeral denotes, without the sign -/
def size (n : Numeral) : ℚ := Decimal.ofFigures n.whole + Decimal.ofFigures n.fraction / 10 ^ n.fraction.length

/-- the number that a numeral denotes -/
def value (n : Numeral) : ℚ := if n.negative then -n.size else n.size

theorem tail_drop (n : Numeral) : n.tail.drop 1 = n.fraction := by
  unfold tail
  split
  · exact (‹n.fraction = []›).symm
  · rfl

/-- the digits before the point end where the digits do -/
theorem takeWhile_digits (n : Numeral) : (n.whole ++ n.tail).takeWhile Char.isDigit = n.whole := by
  have htail : n.tail.takeWhile Char.isDigit = [] := by
    unfold tail
    split
    · rfl
    · rfl
  rw [List.takeWhile_append_of_pos n.whole_isDigit, htail, List.append_nil]

/-- the part without the sign does not start with a sign -/
theorem head_digits (n : Numeral) : (n.whole ++ n.tail).head? ≠ some '-' := by
  rw [List.head?_append_of_ne_nil _ n.whole_ne_nil]
  intro h
  have hdigit := n.whole_isDigit '-' (List.mem_of_mem_head? h)
  cases hdigit

/-- a text tells whether its numeral has a sign, and what follows the sign -/
theorem sign_and_digits {m n : Numeral} (h : m.text = n.text) :
    m.negative = n.negative ∧ m.whole ++ m.tail = n.whole ++ n.tail := by
  have hchars := String.ofList_injective h
  cases hm : m.negative <;> cases hn : n.negative <;> rw [hm, hn] at hchars
  · exact ⟨rfl, hchars⟩
  · exact absurd (congrArg List.head? hchars) m.head_digits
  · exact absurd (congrArg List.head? hchars).symm n.head_digits
  · exact ⟨rfl, List.append_cancel_left hchars⟩

/-- **A numeral can be read off its text.** -/
theorem text_injective {m n : Numeral} (h : m.text = n.text) : m = n := by
  obtain ⟨hsign, hdigits⟩ := sign_and_digits h
  have hwhole : m.whole = n.whole := by rw [← m.takeWhile_digits, hdigits, n.takeWhile_digits]
  rw [hwhole] at hdigits
  have hfraction : m.fraction = n.fraction := by
    rw [← m.tail_drop, List.append_cancel_left hdigits, n.tail_drop]
  exact Numeral.ext hsign hwhole hfraction

/-- no numeral is a zero with a sign -/
theorem text_ne (n : Numeral) : n.text ≠ "-0" := by
  intro h
  have hchars := String.ofList_injective (h.trans (String.ofList_toList.symm : "-0" = String.ofList ['-', '0']))
  cases hn : n.negative <;> rw [hn] at hchars
  · exact n.head_digits (congrArg List.head? hchars)
  · have hdigits : n.whole ++ n.tail = ['0'] := List.append_cancel_left hchars
    have hwhole : n.whole = ['0'] := by rw [← n.takeWhile_digits, hdigits]; rfl
    rw [hwhole] at hdigits
    have hfraction : n.fraction = [] := by rw [← n.tail_drop, List.append_cancel_left hdigits]; rfl
    rw [n.unsigned hwhole hfraction] at hn
    cases hn

/-- the numeral of an integer -/
def integer (negative : Bool) (n : Nat) (h : n = 0 → negative = false) : Numeral where
  negative := negative
  whole := Decimal.figures n
  fraction := []
  whole_isDigit _ hc := Decimal.figures_isDigit hc
  fraction_isDigit _ hc := absurd hc List.not_mem_nil
  whole_ne_nil := Decimal.figures_ne_nil n
  leading h0 := by
    rcases Nat.eq_zero_or_pos n with rfl | hpos
    · rfl
    · exact absurd h0 (Decimal.figures_head hpos.ne')
  trailing := by decide
  unsigned h0 _ := h (by rw [← Decimal.ofFigures_figures n, h0]; rfl)

/-- the numeral of a decimal that ends behind the point -/
def pointed (negative : Bool) (d : Decimal) (hpower : d.power < 0) (hlast : d.digits % 10 ≠ 0) : Numeral where
  negative := negative
  whole := Decimal.ahead (Decimal.figures d.digits) (-d.power).toNat
  fraction := Decimal.behind (Decimal.figures d.digits) (-d.power).toNat
  whole_isDigit c hc := Decimal.padded_isDigit _ (fun _ => Decimal.figures_isDigit) c (List.mem_of_mem_take hc)
  fraction_isDigit c hc := Decimal.padded_isDigit _ (fun _ => Decimal.figures_isDigit) c (List.mem_of_mem_drop hc)
  whole_ne_nil := by
    rw [← List.length_pos_iff_ne_nil, Decimal.ahead_length]
    omega
  leading := Decimal.ahead_head _ (Decimal.figures_head (by omega))
  trailing := by
    rw [Decimal.behind_getLast _ (Decimal.figures_ne_nil _) (by omega), Decimal.figures_getLast]
    intro h
    exact hlast (Decimal.digitChar_eq_zero (Nat.mod_lt _ (by decide)) (Option.some.inj h))
  unsigned _ h0 := by
    have hlength := Decimal.behind_length (Decimal.figures d.digits) (-d.power).toNat
    rw [h0, List.length_nil] at hlength
    omega

theorem signed_ofList (negative : Bool) (cs : List Char) :
    Double.signed negative (String.ofList cs) = String.ofList ((if negative then ['-'] else []) ++ cs) := by
  unfold Double.signed
  split
  · rw [String.ofList_append]
  · rfl

theorem integer_text (negative : Bool) (n : Nat) (h : n = 0 → negative = false) :
    (integer negative n h).text = Double.signed negative (Decimal.text ⟨n, 0⟩) := by
  have hchars : Decimal.chars ⟨n, 0⟩ = Decimal.figures n := by
    rw [Decimal.chars, if_neg (Int.lt_irrefl 0)]
    split
    · rename_i h0
      rw [show n = 0 from h0]
      rfl
    · exact List.append_nil _
  rw [Decimal.text, hchars, signed_ofList, text]
  have htail : (integer negative n h).tail = [] := if_pos rfl
  rw [htail, List.append_nil]
  rfl

theorem integer_value (negative : Bool) (n : Nat) (h : n = 0 → negative = false) :
    (integer negative n h).value = if negative then -(n : ℚ) else n := by
  have hsize : (integer negative n h).size = n := by
    have hwhole : Decimal.ofFigures (integer negative n h).whole = n := Decimal.ofFigures_figures n
    have hfraction : Decimal.ofFigures (integer negative n h).fraction = 0 := rfl
    rw [size, hwhole, hfraction, Nat.cast_zero, zero_div, add_zero]
  rw [value, hsize]
  rfl

section Pointed

variable (negative : Bool) {d : Decimal} (hpower : d.power < 0) (hlast : d.digits % 10 ≠ 0)

theorem pointed_fraction_ne_nil : (pointed negative d hpower hlast).fraction ≠ [] := by
  rw [← List.length_pos_iff_ne_nil, pointed, Decimal.behind_length]
  omega

theorem pointed_text : (pointed negative d hpower hlast).text = Double.signed negative d.text := by
  have htail : (pointed negative d hpower hlast).tail = '.' :: (pointed negative d hpower hlast).fraction :=
    if_neg (pointed_fraction_ne_nil negative hpower hlast)
  rw [text, htail, Decimal.text, signed_ofList, Decimal.chars, if_pos hpower, Decimal.pointed_eq]
  rfl

theorem pointed_value :
    (pointed negative d hpower hlast).value = if negative then -d.value else d.value := by
  have hsize : (pointed negative d hpower hlast).size = d.value := by
    have hpow : (10 : ℚ) ^ (-d.power).toNat = (10 ^ d.power)⁻¹ := by
      rw [← zpow_natCast, Int.toNat_of_nonneg (by omega), zpow_neg]
    rw [size, pointed, Decimal.behind_length, Decimal.ofFigures_pointed, Decimal.ofFigures_figures, hpow,
      div_inv_eq_mul, Decimal.value]
  rw [value, hsize]
  rfl

end Pointed

end Numeral

namespace Double

/-! ## Texts of numbers -/

/-- what the numeral of a number is: the number itself, or with digits behind a point what rounds to it -/
structure WrittenAs (x : Double) (n : Numeral) : Prop where
  text : x.cssText = n.text
  integral : (∃ z : ℤ, x.value = z) → n.fraction = [] ∧ n.value = x.value
  fractional : (¬ ∃ z : ℤ, x.value = z) → n.fraction ≠ [] ∧ RoundsTo n.value x

theorem cssText_of_isZero {x : Double} (h : x.isZero = true) : x.cssText = "0" := if_pos h

theorem integral_writtenAs {x : Double} (hx : x.isFinite = true) (h : x.isIntegral = true) :
    ∃ n : Numeral, x.WrittenAs n := by
  have hinteger := (isIntegral_iff hx).1 h
  by_cases hzero : x.isZero = true
  · refine ⟨Numeral.integer false 0 fun _ => rfl, ⟨?_, fun _ => ⟨rfl, ?_⟩, fun hno => absurd hinteger hno⟩⟩
    · rw [cssText_of_isZero hzero, Numeral.integer_text]
      rfl
    · rw [Numeral.integer_value, (value_eq_zero_iff x).2 hzero]
      rfl
  · have hsize := size_of_isIntegral hx h
    have hfloor : x.floor ≠ 0 := by
      intro h0
      rw [h0, Nat.cast_zero, size_eq_zero_iff] at hsize
      exact hzero hsize
    refine ⟨Numeral.integer x.negative x.floor (absurd · hfloor),
      ⟨?_, fun _ => ⟨rfl, ?_⟩, fun hno => absurd hinteger hno⟩⟩
    · rw [cssText, if_neg hzero, if_pos h, Numeral.integer_text]
    · rw [Numeral.integer_value, value, hsize]

theorem fractional_writtenAs {x : Double} (hx : x.isFinite = true) (h : x.isIntegral = false) :
    ∃ n : Numeral, x.WrittenAs n := by
  obtain ⟨hpower, hlast, hrounds⟩ := shortest_fractional hx h
  have hzero : ¬ x.isZero = true := by
    rw [← significand_eq_zero_iff]
    exact (significand_pos_of_fractional hx h).ne'
  refine ⟨Numeral.pointed x.negative x.shortest hpower hlast, ⟨?_, fun hz => ?_, fun _ => ⟨?_, ?_⟩⟩⟩
  · rw [cssText, if_neg hzero, h, if_neg (by decide), display, isNaN_of_isFinite hx, hx, if_neg (by decide),
      if_neg (by decide), if_neg hzero, Numeral.pointed_text]
  · rw [(isIntegral_iff hx).2 hz] at h
    cases h
  · exact Numeral.pointed_fraction_ne_nil _ hpower hlast
  · rw [Numeral.pointed_value]
    exact hrounds

theorem exists_writtenAs {x : Double} (hx : x.isFinite = true) : ∃ n : Numeral, x.WrittenAs n := by
  cases h : x.isIntegral with
  | true => exact integral_writtenAs hx h
  | false => exact fractional_writtenAs hx h

/-- a numeral tells which number it was written for -/
theorem WrittenAs.value_eq {x y : Double} {n : Numeral} (hx : x.WrittenAs n) (hy : y.WrittenAs n) :
    x.value = y.value := by
  by_cases hzx : ∃ z : ℤ, x.value = z
  · obtain ⟨hnil, hvalue⟩ := hx.integral hzx
    have hzy : ∃ z : ℤ, y.value = z := by
      by_contra hno
      exact (hy.fractional hno).1 hnil
    rw [← hvalue, (hy.integral hzy).2]
  · obtain ⟨hcons, hrounds⟩ := hx.fractional hzx
    have hzy : ¬ ∃ z : ℤ, y.value = z := fun hz => hcons (hy.integral hz).1
    exact hrounds.unique (hy.fractional hzy).2

theorem cssText_of_same {x y : Double} (h : x.same y = true) : x.cssText = y.cssText := by
  rw [← cssText_canonical x, canonical_of_same h, cssText_canonical]

/-- **The text of a number is a numeral, and tells which number it is.** An integer of any size is written exactly and
without a point, and either zero as `0`; any other number is written with a point, as a numeral that rounds to it. So
two finite numbers have one text exactly if they are equal. -/
theorem number_text_canonical (x : Double) (hx : x.isFinite = true) :
    (∃ n : Numeral, x.WrittenAs n) ∧ x.cssText ≠ "-0" ∧ (x.value = 0 → x.cssText = "0") ∧
      ∀ y : Double, y.isFinite = true → (x.cssText = y.cssText ↔ x.value = y.value) := by
  obtain ⟨n, hn⟩ := exists_writtenAs hx
  refine ⟨⟨n, hn⟩, ?_, fun h0 => cssText_of_isZero ((value_eq_zero_iff x).1 h0), fun y hy => ⟨fun htext => ?_, ?_⟩⟩
  · rw [hn.text]
    exact n.text_ne
  · obtain ⟨m, hm⟩ := exists_writtenAs hy
    have hsame : n = m := Numeral.text_injective (by rw [← hn.text, htext, hm.text])
    subst hsame
    exact hn.value_eq hm
  · intro hvalue
    exact cssText_of_same ((same_iff hx hy).2 hvalue)

/-- the least positive number -/
def least : Double := ⟨1⟩

/-- the negative zero -/
def minusZero : Double := ⟨0x8000000000000000⟩

/-- the least number is written as no zero is, though only its digits far behind the point tell -/
theorem least_written : least.isFinite = true ∧ minusZero.isFinite = true ∧
    (∃ n : Numeral, least.cssText = n.text ∧ n.fraction ≠ [] ∧ RoundsTo n.value least) ∧ minusZero.cssText = "0" ∧
      least.cssText ≠ minusZero.cssText := by
  have hfinite : least.isFinite = true := by decide
  have hzero : minusZero.isFinite = true := by decide
  have hfraction : ¬ ∃ z : ℤ, least.value = z := by
    rw [← isIntegral_iff hfinite]
    decide +kernel
  obtain ⟨⟨n, hn⟩, -, -, hsame⟩ := number_text_canonical least hfinite
  obtain ⟨-, -, hminus, -⟩ := number_text_canonical minusZero hzero
  have hminus0 : minusZero.value = 0 := (value_eq_zero_iff _).2 (by decide)
  refine ⟨hfinite, hzero, ⟨n, hn.text, hn.fractional hfraction⟩, hminus hminus0, fun h => ?_⟩
  rw [hsame minusZero hzero, hminus0] at h
  exact hfraction ⟨0, by rw [h, Int.cast_zero]⟩

end Double

end StyleTree
