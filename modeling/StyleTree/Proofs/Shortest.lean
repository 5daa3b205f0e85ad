/-
The shortest decimal of a number. It is searched for on coarser and then finer grids of powers of ten, in the interval of
what rounds to the number, and everything is counted in natural numbers. Here the counting is taken back to the numbers
that are meant.

- `holds_iff`: the test for a grid point is the test whether the interval contains it;
- `contains_of_pick?`, `not_contains_of_pick?`: two neighbours decide for a whole grid;
- `coarsest_found`: the search ends in the interval, and no coarser grid has a point there;
- `nearest_of_contains`: the ends of the interval are the middles between the number and its neighbours, so what the
  interval contains rounds to the number;
- `shortest_fractional`: so the decimal of a number that is not an integer reads back, is no integer either, and ends in
  no zero.
-/
import StyleTree.Double.Text
import StyleTree.Proofs.Rounding

namespace StyleTree

/-- the number that a decimal denotes -/
def Decimal.value (d : Decimal) : ℚ := d.digits * 10 ^ d.power

namespace Interval

/-! ## Intervals of numbers -/

/-- what the ends of an interval are counted in -/
def unit (i : Interval) : ℚ := 2 ^ i.scale

/-- the interval as a set of numbers -/
def Contains (i : Interval) (q : ℚ) : Prop :=
  if i.closed then i.low * i.unit ≤ q ∧ q ≤ i.high * i.unit else i.low * i.unit < q ∧ q < i.high * i.unit

/-- the ends are off the centre -/
structure Proper (i : Interval) : Prop where
  low : i.low < i.centre
  high : i.centre < i.high

section Contains

variable {i : Interval} {p q r : ℚ}

theorem unit_pos (i : Interval) : 0 < i.unit := zpow_pos two_pos _

theorem Contains.bounds (h : i.Contains q) : i.low * i.unit ≤ q ∧ q ≤ i.high * i.unit := by
  unfold Contains at h
  split at h
  · exact h
  · exact ⟨h.1.le, h.2.le⟩

/-- only a closed interval contains its ends -/
theorem Contains.closed (h : i.Contains q) (hend : q = i.low * i.unit ∨ q = i.high * i.unit) : i.closed = true := by
  unfold Contains at h
  split at h
  · assumption
  · rcases hend with rfl | rfl
    · exact absurd h.1 (lt_irrefl _)
    · exact absurd h.2 (lt_irrefl _)

theorem contains_centre (hi : i.Proper) : i.Contains (i.centre * i.unit) := by
  have hlow : (i.low : ℚ) * i.unit < i.centre * i.unit :=
    mul_lt_mul_of_pos_right (Nat.cast_lt.2 hi.low) i.unit_pos
  have hhigh : (i.centre : ℚ) * i.unit < i.high * i.unit :=
    mul_lt_mul_of_pos_right (Nat.cast_lt.2 hi.high) i.unit_pos
  unfold Contains
  split
  · exact ⟨hlow.le, hhigh.le⟩
  · exact ⟨hlow, hhigh⟩

theorem Contains.between (hp : i.Contains p) (hr : i.Contains r) (hpq : p ≤ q) (hqr : q ≤ r) : i.Contains q := by
  unfold Contains at hp hr ⊢
  split
  · rw [if_pos ‹_›] at hp hr
    exact ⟨hp.1.trans hpq, hqr.trans hr.2⟩
  · rw [if_neg ‹_›] at hp hr
    exact ⟨hp.1.trans_le hpq, hqr.trans_lt hr.2⟩

end Contains

/-! ## Counting -/

/-- how often the common measure of the unit and a grid goes into one -/
def fineness (i : Interval) (power : Int) : ℚ := 2 ^ (-i.scale).toNat * 10 ^ (-power).toNat

theorem fineness_pos (i : Interval) (power : Int) : 0 < i.fineness power := by
  unfold fineness
  positivity

theorem steps_eq (i : Interval) (power : Int) (n : Nat) :
    (i.steps power n : ℚ) = n * i.unit * i.fineness power := by
  have hpow := pow_toNat (b := 2) two_ne_zero i.scale
  rw [steps, exp2_eq, exp10_eq, unit, fineness]
  push_cast
  rw [hpow]
  ring

theorem point_eq (i : Interval) (power : Int) (d : Nat) :
    (i.point power d : ℚ) = d * 10 ^ power * i.fineness power := by
  have hpow := pow_toNat (b := 10) (by norm_num) power
  rw [point, exp2_eq, exp10_eq, fineness]
  push_cast
  rw [hpow]
  ring

/-- counts in one measure compare as what they count -/
theorem cast_le_iff {a b : Nat} {p q k : ℚ} (ha : (a : ℚ) = p * k) (hb : (b : ℚ) = q * k) (hk : 0 < k) :
    a ≤ b ↔ p ≤ q := by
  rw [← Nat.cast_le (α := ℚ), ha, hb, mul_le_mul_iff_left₀ hk]

theorem cast_lt_iff {a b : Nat} {p q k : ℚ} (ha : (a : ℚ) = p * k) (hb : (b : ℚ) = q * k) (hk : 0 < k) :
    a < b ↔ p < q := by
  rw [← Nat.cast_lt (α := ℚ), ha, hb, mul_lt_mul_iff_left₀ hk]

/-- **The test for a grid point** says whether the interval contains it. -/
theorem holds_iff (i : Interval) (power : Int) (d : Nat) :
    i.holds power d = true ↔ i.Contains (d * 10 ^ power) := by
  have hk := i.fineness_pos power
  have hpoint := i.point_eq power d
  have hlow := i.steps_eq power i.low
  have hhigh := i.steps_eq power i.high
  unfold holds Contains
  split
  · rw [decide_eq_true_iff, cast_le_iff hlow hpoint hk, cast_le_iff hpoint hhigh hk]
  · rw [decide_eq_true_iff, cast_lt_iff hlow hpoint hk, cast_lt_iff hpoint hhigh hk]

theorem point_one_pos (i : Interval) (power : Int) : 0 < i.point power 1 := by
  rw [← Nat.cast_pos (α := ℚ), point_eq]
  have hk := i.fineness_pos power
  positivity

/-- the centre lies between two neighbours on a grid -/
theorem below_le (i : Interval) (power : Int) : (i.below power : ℚ) * 10 ^ power ≤ i.centre * i.unit := by
  have hdiv : i.below power * i.point power 1 ≤ i.steps power i.centre := Nat.div_mul_le_self _ _
  refine (cast_le_iff ?_ (i.steps_eq power i.centre) (i.fineness_pos power)).1 hdiv
  rw [Nat.cast_mul, point_eq, Nat.cast_one, one_mul, mul_assoc]

theorem lt_below_succ (i : Interval) (power : Int) :
    (i.centre : ℚ) * i.unit < (i.below power + 1 : ℕ) * 10 ^ power := by
  have hdiv : i.steps power i.centre < i.point power 1 * (i.below power + 1) :=
    Nat.lt_mul_div_succ _ (i.point_one_pos power)
  refine (cast_lt_iff (i.steps_eq power i.centre) ?_ (i.fineness_pos power)).1 hdiv
  rw [Nat.cast_mul, point_eq, Nat.cast_one, one_mul]
  ring

/-! ## The search -/

theorem contains_of_pick? {i : Interval} {power : Int} {d : Nat} (h : i.pick? power = some d) :
    i.Contains (d * 10 ^ power) := by
  rw [← holds_iff]
  unfold pick? at h
  dsimp only at h
  split at h
  · split at h <;> cases h <;> assumption
  · cases h
    assumption
  · cases h
    assumption
  · cases h

/-- where neither neighbour of the centre is in the interval, no other point of the grid is -/
theorem not_contains_of_pick? {i : Interval} (hi : i.Proper) {power : Int} (h : i.pick? power = none) (n : Nat) :
    ¬ i.Contains (n * 10 ^ power) := by
  intro hn
  have hten : (0 : ℚ) < 10 ^ power := zpow_pos (by norm_num) _
  have hcentre := contains_centre hi
  have hneither : i.holds power (i.below power) = false ∧ i.holds power (i.below power + 1) = false := by
    unfold pick? at h
    dsimp only at h
    split at h
    · split at h <;> cases h
    · cases h
    · cases h
    · exact ⟨by assumption, by assumption⟩
  rcases Nat.lt_or_ge (i.below power) n with hlt | hge
  · have hle : ((i.below power + 1 : ℕ) : ℚ) * 10 ^ power ≤ n * 10 ^ power :=
      mul_le_mul_of_nonneg_right (Nat.cast_le.2 hlt) hten.le
    have habove := (i.holds_iff power _).2 (hcentre.between hn (i.lt_below_succ power).le hle)
    rw [hneither.2] at habove
    cases habove
  · have hle : (n : ℚ) * 10 ^ power ≤ i.below power * 10 ^ power :=
      mul_le_mul_of_nonneg_right (Nat.cast_le.2 hge) hten.le
    have hbelow := (i.holds_iff power _).2 (hn.between hcentre hle (i.below_le power))
    rw [hneither.1] at hbelow
    cases hbelow

/-- the decimal is in the interval, and up to a power of ten no coarser grid has a point there -/
structure Coarsest (i : Interval) (power : Int) (d : Decimal) : Prop where
  power_le : d.power ≤ power
  contained : i.Contains d.value
  coarsest : ∀ p, d.power < p → p ≤ power → ∀ n : Nat, ¬ i.Contains (n * 10 ^ p)

/-- a centre on a grid is the last point of it that is not above the centre -/
theorem below_of_onGrid {i : Interval} {power : Int} {n : Nat} (h : (i.centre : ℚ) * i.unit = n * 10 ^ power) :
    (i.below power : ℚ) * 10 ^ power = i.centre * i.unit := by
  have hten : (0 : ℚ) < 10 ^ power := zpow_pos (by norm_num) _
  have hle := i.below_le power
  have hlt := i.lt_below_succ power
  rw [h] at hle hlt
  have hle : i.below power ≤ n := by exact_mod_cast le_of_mul_le_mul_right hle hten
  have hlt : n < i.below power + 1 := by exact_mod_cast lt_of_mul_lt_mul_right hlt hten.le
  obtain rfl : i.below power = n := by omega
  exact h.symm

/-- **The search ends on the coarsest grid**, if the centre lies on the last grid at the latest. -/
theorem coarsest_found {i : Interval} (hi : i.Proper) (more : Nat) (power : Int) {n : Nat}
    (hgrid : (i.centre : ℚ) * i.unit = n * 10 ^ (power - more)) : i.Coarsest power (i.coarsest more power) := by
  induction more generalizing power with
  | zero =>
    rw [Nat.cast_zero, sub_zero] at hgrid
    refine ⟨le_rfl, ?_, fun p hp hle => absurd hp (not_lt.2 hle)⟩
    rw [Decimal.value, coarsest, below_of_onGrid hgrid]
    exact contains_centre hi
  | succ more ih =>
    cases hpick : i.pick? power with
    | some d =>
      rw [coarsest, hpick]
      exact ⟨le_rfl, contains_of_pick? hpick, fun p hp hle => absurd hp (not_lt.2 hle)⟩
    | none =>
      have hnext : power - (more + 1 : ℕ) = power - 1 - more := by push_cast; ring
      rw [hnext] at hgrid
      obtain ⟨hle, hcontained, hcoarsest⟩ := ih (power - 1) hgrid
      rw [coarsest, hpick]
      refine ⟨by dsimp only; omega, hcontained, fun p hp hp' => ?_⟩
      rcases eq_or_lt_of_le hp' with rfl | hlt
      · exact not_contains_of_pick? hi hpick
      · exact hcoarsest p hp (by omega)

end Interval

namespace Double

/-! ## The rounding interval of a number -/

section Around

variable {x : Double}

theorem around_unit (x : Double) : (2 : ℚ) ^ x.exponent = 4 * (Interval.around x).unit := by
  have hscale : (Interval.around x).scale = x.exponent - 2 := rfl
  rw [Interval.unit, hscale, zpow_sub₀ two_ne_zero]
  norm_num
  ring

/-- in quarters of the last binary place, the number is four times its significand -/
theorem size_eq_units (x : Double) : x.size = 4 * x.significand * (Interval.around x).unit := by
  rw [size, around_unit]
  ring

theorem around_high_eq (x : Double) : ((Interval.around x).high : ℚ) = 4 * x.significand + 2 := by
  simp only [Interval.around]
  push_cast
  ring

theorem around_low_eq (hm : 0 < x.significand) :
    ((Interval.around x).low : ℚ) = 4 * x.significand - (if x.fraction = 0 ∧ 1 < x.biased then 1 else 2) := by
  simp only [Interval.around]
  split
  · push_cast [Nat.cast_sub (show 1 ≤ 4 * x.significand by omega)]
    rfl
  · push_cast [Nat.cast_sub (show 2 ≤ 4 * x.significand by omega)]
    rfl

theorem around_proper (hm : 0 < x.significand) : (Interval.around x).Proper := by
  constructor
  · simp only [Interval.around]
    split <;> omega
  · simp only [Interval.around]
    omega

/-- a representable number lies on the grid of a given power of two, or is smaller than what has 53 digits there -/
theorem Representable.on_grid {c : ℚ} (hc : Representable c) (e : ℤ) :
    (∃ k : ℤ, c = k * 2 ^ e) ∨ (-1074 < e ∧ 2 * c ≤ (2 ^ 53 - 1) * 2 ^ e) := by
  obtain ⟨m, f, hm, hf, rfl⟩ := hc
  rcases lt_or_ge f e with hef | hef
  · refine Or.inr ⟨by omega, ?_⟩
    obtain ⟨n, hn⟩ := zpow_two_split (e := f + 1) (f := e) (by omega)
    have hpos : (0 : ℚ) < 2 ^ f := zpow_pos two_pos _
    have hfactor : (m : ℚ) ≤ 2 ^ 53 - 1 := by
      have hle : m ≤ 2 ^ 53 - 1 := by rw [abs_lt] at hm; omega
      exact_mod_cast hle
    have hpow : (1 : ℚ) ≤ 2 ^ n := one_le_pow₀ (by norm_num)
    rw [hn, zpow_add_one₀ two_ne_zero]
    calc 2 * ((m : ℚ) * 2 ^ f) ≤ 2 * ((2 ^ 53 - 1) * 2 ^ f) := by gcongr
      _ = (2 ^ 53 - 1) * (1 * (2 ^ f * 2)) := by ring
      _ ≤ (2 ^ 53 - 1) * (2 ^ n * (2 ^ f * 2)) := by gcongr
  · obtain ⟨n, hn⟩ := zpow_two_split hef
    refine Or.inl ⟨m * 2 ^ n, ?_⟩
    rw [hn]
    push_cast
    ring

/-- the lower end of the interval is not below the middle between the number and what is smaller -/
theorem around_low (hm : 0 < x.significand) {c : ℚ} (hc : Representable c) (h : c < x.size) :
    c + x.size ≤ 2 * ((Interval.around x).low * (Interval.around x).unit) := by
  have hu := (Interval.around x).unit_pos
  have hsize := x.size_eq_units
  have hlow := around_low_eq hm
  rcases hc.on_grid x.exponent with ⟨k, rfl⟩ | ⟨he, hsmall⟩
  · have hk : (k : ℚ) < x.significand := lt_of_mul_lt_mul_right h (zpow_pos two_pos _).le
    have hk : (k : ℚ) + 1 ≤ x.significand := by exact_mod_cast hk
    rw [around_unit, hsize, hlow]
    split <;> nlinarith
  · -- above the least exponent; the step below is half as long if the significand is the least one
    have hbiased := biased_of_exponent he
    have hsignificand := significand_of_biased hbiased
    rw [around_unit] at hsmall
    rw [hsize, hlow]
    by_cases hedge : x.fraction = 0
    · have hm : (x.significand : ℚ) = 2 ^ 52 := by rw [hsignificand, hedge]; norm_num
      rw [if_pos ⟨hedge, hbiased⟩, hm]
      nlinarith
    · have hm : (2 : ℚ) ^ 52 + 1 ≤ x.significand := by
        have hle : 2 ^ 52 + 1 ≤ x.significand := by omega
        exact_mod_cast hle
      rw [if_neg fun h => hedge h.1]
      nlinarith

/-- the upper end of the interval is not above the middle between the number and what is larger -/
theorem around_high {c : ℚ} (hc : Representable c) (h : x.size < c) :
    2 * ((Interval.around x).high * (Interval.around x).unit) ≤ c + x.size := by
  have hu := (Interval.around x).unit_pos
  have hsize := x.size_eq_units
  have hhigh := x.around_high_eq
  rcases hc.on_grid x.exponent with ⟨k, rfl⟩ | ⟨he, hsmall⟩
  · have hk : (x.significand : ℚ) < k := lt_of_mul_lt_mul_right h (zpow_pos two_pos _).le
    have hk : (x.significand : ℚ) + 1 ≤ k := by exact_mod_cast hk
    rw [around_unit, hsize, hhigh]
    nlinarith
  · -- a smaller number cannot be the larger one
    have hm : (2 : ℚ) ^ 52 ≤ x.significand := by
      have hle : 2 ^ 52 ≤ x.significand := by rw [significand_of_biased (biased_of_exponent he)]; omega
      exact_mod_cast hle
    rw [around_unit] at hsmall
    rw [hsize] at h
    nlinarith

/-- **What the interval contains rounds to the number.** -/
theorem nearest_of_contains (hm : 0 < x.significand) {q c : ℚ} (hq : (Interval.around x).Contains q)
    (hc : Representable c) :
    |q - x.size| ≤ |q - c| ∧ (c ≠ x.size → |q - x.size| = |q - c| → x.significand % 2 = 0) := by
  have hclosed : (Interval.around x).closed = true → x.significand % 2 = 0 := by
    simp only [Interval.around, decide_eq_true_iff, imp_self]
  obtain ⟨hlow, hhigh⟩ := hq.bounds
  rcases lt_trichotomy c x.size with hlt | rfl | hgt
  · have hmiddle := around_low hm hc hlt
    have habs : |q - c| = q - c := abs_of_nonneg (by linarith)
    refine ⟨?_, fun _ htie => ?_⟩
    · rw [habs]
      exact abs_le.2 ⟨by linarith, by linarith⟩
    · rw [habs] at htie
      refine hclosed (hq.closed (Or.inl ?_))
      rcases abs_choice (q - x.size) with h | h <;> linarith
  · exact ⟨le_rfl, fun hne => absurd rfl hne⟩
  · have hmiddle := around_high hc hgt
    have habs : |q - c| = c - q := by rw [abs_sub_comm]; exact abs_of_nonneg (by linarith)
    refine ⟨?_, fun _ htie => ?_⟩
    · rw [habs]
      exact abs_le.2 ⟨by linarith, by linarith⟩
    · rw [habs] at htie
      refine hclosed (hq.closed (Or.inr ?_))
      rcases abs_choice (q - x.size) with h | h <;> linarith

theorem roundsTo_of_contains (hx : x.isFinite = true) (hm : 0 < x.significand) {q : ℚ}
    (hq : (Interval.around x).Contains q) : RoundsTo (if x.negative then -q else q) x := by
  have hmirror : ∀ c : ℚ, |(if x.negative then -q else q) - c| = |q - if x.negative then -c else c| := by
    intro c
    split
    · rw [← abs_neg]
      congr 1
      ring
    · rfl
  have hsize : (if x.negative then -x.value else x.value) = x.size := by
    unfold value
    split
    · exact neg_neg _
    · rfl
  have hrepresentable : ∀ c : ℚ, Representable c → Representable (if x.negative then -c else c) := by
    intro c hc
    split
    · exact hc.neg
    · exact hc
  refine ⟨hx, fun c hc => ?_, fun c hc hne htie => ?_⟩
  · rw [hmirror, hmirror, hsize]
    exact (nearest_of_contains hm hq (hrepresentable c hc)).1
  · rw [hmirror, hmirror, hsize] at htie
    refine (nearest_of_contains hm hq (hrepresentable c hc)).2 (fun h => hne ?_) htie
    rw [← hsize] at h
    split at h
    · exact neg_injective h
    · exact h

end Around

/-! ## The shortest decimal -/

/-- the search goes down to a grid that the number lies on -/
theorem shortest_coarsest {x : Double} (hm : 0 < x.significand) :
    (Interval.around x).Coarsest (Decimal.figures x.floor).length x.shortest := by
  set i := Interval.around x
  have hgrid : ∃ n : ℕ, (i.centre : ℚ) * i.unit = n * 10 ^ min i.scale 0 := by
    rcases Int.le_total 0 i.scale with hscale | hscale
    · refine ⟨i.centre * 2 ^ i.scale.toNat, ?_⟩
      rw [min_eq_right hscale, zpow_zero, mul_one, Interval.unit]
      push_cast
      rw [← zpow_natCast, Int.toNat_of_nonneg hscale]
    · refine ⟨i.centre * 5 ^ (-i.scale).toNat, ?_⟩
      rw [min_eq_left hscale, Interval.unit, show (10 : ℚ) = 5 * 2 by norm_num, mul_zpow]
      push_cast
      rw [← zpow_natCast, Int.toNat_of_nonneg (by omega), mul_assoc, ← mul_assoc ((5 : ℚ) ^ (-i.scale)),
        ← zpow_add₀ (by norm_num), neg_add_cancel, zpow_zero, one_mul]
  obtain ⟨n, hn⟩ := hgrid
  have hlast : ((Decimal.figures x.floor).length : ℤ) -
      (((Decimal.figures x.floor).length : ℤ) - min i.scale 0).toNat = min i.scale 0 := by omega
  rw [← hlast] at hn
  exact Interval.coarsest_found (around_proper hm) _ _ hn

section Fractional

variable {x : Double} (hx : x.isFinite = true) (hint : x.isIntegral = false)

include hx hint

theorem exponent_neg_of_fractional : x.exponent < 0 := by
  by_contra hge
  have hone : (-x.exponent).toNat = 0 := by omega
  rw [isIntegral, hx, hone] at hint
  simp [exp2_eq, Nat.mod_one] at hint

theorem significand_pos_of_fractional : 0 < x.significand := by
  rcases Nat.eq_zero_or_pos x.significand with h0 | hpos
  · rw [isIntegral, hx, h0] at hint
    simp at hint
  · exact hpos

/-- integers near a number that is none are small enough to be representable -/
theorem representable_of_contains {n : Nat} (hn : (Interval.around x).Contains n) : Representable n := by
  have hexp := exponent_neg_of_fractional hx hint
  have hunit : (Interval.around x).unit ≤ 1 / 8 := by
    have hpow : (2 : ℚ) ^ x.exponent ≤ 2 ^ (-1 : ℤ) := zpow_le_zpow_right₀ (by norm_num) (by omega)
    rw [around_unit] at hpow
    norm_num at hpow ⊢
    linarith
  have hsignificand : (x.significand : ℚ) + 1 ≤ 2 ^ 53 := by exact_mod_cast x.significand_lt
  have hsmall : (n : ℚ) < 2 ^ 53 := by
    have hle := hn.bounds.2
    have hpos := (Interval.around x).unit_pos
    rw [around_high_eq] at hle
    nlinarith
  refine ⟨n, 0, ?_, by norm_num, by simp⟩
  rw [abs_of_nonneg (by positivity)]
  exact_mod_cast hsmall

/-- an integer rounds to itself, and so to no number that is none -/
theorem not_contains_integer (n : Nat) : ¬ (Interval.around x).Contains n := by
  intro hn
  have hm := significand_pos_of_fractional hx hint
  have hself := (nearest_of_contains hm hn (representable_of_contains hx hint hn)).1
  rw [sub_self, abs_zero, abs_nonpos_iff, sub_eq_zero] at hself
  have hinteger : ∃ z : ℤ, x.value = z := by
    unfold value
    rw [← hself]
    split
    · exact ⟨-n, by push_cast; rfl⟩
    · exact ⟨n, by push_cast; rfl⟩
  rw [(isIntegral_iff hx).2 hinteger] at hint
  cases hint

/-- **The shortest decimal of a fractional number** rounds to it. It is no integer, and its last digit is not zero. -/
theorem shortest_fractional :
    x.shortest.power < 0 ∧ x.shortest.digits % 10 ≠ 0 ∧
      RoundsTo (if x.negative then -x.shortest.value else x.shortest.value) x := by
  have hm := significand_pos_of_fractional hx hint
  have hfound := shortest_coarsest hm
  have hpower : x.shortest.power < 0 := by
    by_contra hge
    have hinteger : x.shortest.value = (x.shortest.digits * 10 ^ x.shortest.power.toNat : ℕ) := by
      rw [Decimal.value]
      push_cast
      rw [← zpow_natCast, Int.toNat_of_nonneg (by omega)]
    have hcontained := hfound.contained
    rw [hinteger] at hcontained
    exact not_contains_integer hx hint _ hcontained
  refine ⟨hpower, fun hzero => ?_, roundsTo_of_contains hx hm hfound.contained⟩
  -- with a last digit of zero the decimal would lie on the next coarser grid as well
  have hcoarser : x.shortest.value = (x.shortest.digits / 10 : ℕ) * 10 ^ (x.shortest.power + 1) := by
    have hdigits : (x.shortest.digits : ℚ) = (x.shortest.digits / 10 : ℕ) * 10 := by
      exact_mod_cast (Nat.div_mul_cancel (Nat.dvd_of_mod_eq_zero hzero)).symm
    rw [Decimal.value, zpow_add_one₀ (by norm_num), hdigits]
    ring
  have hcontained := hfound.contained
  rw [hcoarser] at hcontained
  exact hfound.coarsest _ (by omega) (by omega) _ hcontained

end Fractional

end Double

end StyleTree
