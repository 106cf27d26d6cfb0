import Mathlib.Data.Nat.Log
import Mathlib.Tactic.Ring
import SceneEdit.Proofs.Number.Range

/-!
# Exact conversions between formats

A number is its own rounding: the word is determined by the magnitude (`word_eq`), so rounding a
magnitude that a format has gives the number back (`ofUnits_units`). Every finite component has its
magnitude in the wide format too (`exists_units_eq`), hence widening is exact and narrowing undoes
it (`narrow_widen`).
-/

namespace SceneEdit

theorem roundDiv_mul {d : Nat} (quotient : Nat) (positive : 0 < d) :
    roundDiv (quotient * d) d = quotient := by
  have whole : quotient * d / d = quotient := Nat.mul_div_cancel quotient positive
  have rest : quotient * d % d = 0 := Nat.mul_mod_left quotient d
  rw [roundDiv, whole, rest, if_pos (by omega)]

/-- How many binary places a magnitude has beyond a significand of `fraction` places. -/
def excess (fraction n : Nat) : Nat := n.log2 - fraction

theorem excess_eq_zero {fraction n : Nat} (small : n < twoTo fraction) : excess fraction n = 0 := by
  by_cases zero : n = 0
  · rw [zero, excess, Nat.log2_zero, Nat.zero_sub]
  · have := Binary.log2_lt_of_lt_twoTo zero small
    rw [excess]
    omega

theorem log2_mul_twoTo {n : Nat} (positive : n ≠ 0) (places : Nat) :
    (n * twoTo places).log2 = n.log2 + places := by
  obtain ⟨low, high⟩ := (Nat.log2_eq_iff positive).mp rfl
  rw [Nat.log2_eq_iff (Nat.mul_ne_zero positive (twoTo_pos places).ne')]
  constructor
  · rw [Nat.pow_add]
    exact Nat.mul_le_mul_right _ low
  · rw [Nat.add_right_comm, Nat.pow_add]
    exact Nat.mul_lt_mul_of_pos_right high (twoTo_pos places)

/-- A significand moved by some places has that many places too much. -/
theorem excess_mul_twoTo {fraction significand : Nat} (low : twoTo fraction ≤ significand)
    (high : significand < twoTo (fraction + 1)) (places : Nat) :
    excess fraction (significand * twoTo places) = places := by
  have positive : significand ≠ 0 := by
    have := twoTo_pos fraction
    omega
  have top : significand.log2 = fraction := (Nat.log2_eq_iff positive).mpr ⟨low, high⟩
  rw [excess, log2_mul_twoTo positive, top]
  omega

theorem excess_mul_le (fraction n places : Nat) :
    excess fraction (n * twoTo places) ≤ n.log2 + places - fraction := by
  have small : n * twoTo places < twoTo (n.log2 + 1 + places) := by
    rw [twoTo_add]
    exact Nat.mul_lt_mul_of_pos_right Nat.lt_log2_self (twoTo_pos places)
  rw [excess]
  by_cases zero : n * twoTo places = 0
  · rw [zero, Nat.log2_zero]
    omega
  · have := Binary.log2_lt_of_lt_twoTo zero small
    omega

namespace Binary

variable {f : FloatFormat}

/-- A number is a significand below the exponent field's start, or one moved by its exponent. -/
theorem units_cases (x : Binary f) :
    (x.units = x.word.val ∧ x.word.val < twoTo f.fractionBits) ∨
      ∃ significand places, twoTo f.fractionBits ≤ significand ∧
        significand < twoTo (f.fractionBits + 1) ∧ x.units = significand * twoTo places ∧
        x.word.val = places * twoTo f.fractionBits + significand := by
  have split := Nat.div_add_mod x.word.val (twoTo f.fractionBits)
  have below := Nat.mod_lt x.word.val (twoTo_pos f.fractionBits)
  by_cases subnormal : x.field = 0
  · refine Or.inl ⟨by rw [units, if_pos subnormal], ?_⟩
    rw [field] at subnormal
    rw [subnormal] at split
    omega
  · refine Or.inr ⟨twoTo f.fractionBits + x.word.val % twoTo f.fractionBits, x.field - 1,
      by omega, ?_, by rw [units, if_neg subnormal, step], ?_⟩
    · rw [twoTo_add, show twoTo 1 = 2 from rfl]
      omega
    · obtain ⟨places, exponent⟩ := Nat.exists_eq_succ_of_ne_zero subnormal
      rw [exponent, Nat.succ_sub_one]
      rw [show x.word.val / twoTo f.fractionBits = places + 1 from exponent] at split
      calc x.word.val = twoTo f.fractionBits * (places + 1) +
            x.word.val % twoTo f.fractionBits := split.symm
        _ = _ := by ring

/-- The magnitude is a whole number of its last places. -/
theorem twoTo_excess_dvd (x : Binary f) : twoTo (excess f.fractionBits x.units) ∣ x.units := by
  rcases x.units_cases with ⟨same, small⟩ | ⟨significand, places, low, high, same, -⟩
  · rw [excess_eq_zero (by omega)]
    exact Nat.one_dvd _
  · rw [same, excess_mul_twoTo low high]
    exact Nat.dvd_mul_left _ _

/-- The word, read off the magnitude. -/
theorem word_eq (x : Binary f) :
    x.word.val = excess f.fractionBits x.units * twoTo f.fractionBits +
      x.units / twoTo (excess f.fractionBits x.units) := by
  rcases x.units_cases with ⟨same, small⟩ | ⟨significand, places, low, high, same, word⟩
  · rw [excess_eq_zero (by omega), same, show twoTo 0 = 1 from rfl, Nat.div_one, Nat.zero_mul,
      Nat.zero_add]
  · rw [same, excess_mul_twoTo low high, Nat.mul_div_cancel _ (twoTo_pos places), word]

theorem word_le_of_units_le {x y : Binary f} (small : x.units ≤ y.units) :
    x.word.val ≤ y.word.val := by
  by_contra larger
  have back := units_le_units (Nat.le_of_lt (Nat.lt_of_not_le larger))
  have same : x.units = y.units := Nat.le_antisymm small back
  have words : x.word.val = y.word.val := by rw [x.word_eq, y.word_eq, same]
  omega

/-- A number is its own rounding. -/
theorem ofUnits_units {x : Binary f} (finite : x.isFinite = true) (negative : Bool) {d : Nat}
    (positive : 0 < d) : ofUnits f negative (x.units * d) d = ⟨negative, x.word⟩ := by
  obtain ⟨quotient, whole⟩ := x.twoTo_excess_dvd
  have rounded : roundDiv (x.units * d) (d * twoTo (excess f.fractionBits x.units)) =
      x.units / twoTo (excess f.fractionBits x.units) := by
    have scaled : x.units * d = quotient * (d * twoTo (excess f.fractionBits x.units)) := by
      calc x.units * d = twoTo (excess f.fractionBits x.units) * quotient * d := by rw [← whole]
        _ = _ := by ring
    have divided : x.units / twoTo (excess f.fractionBits x.units) = quotient :=
      Nat.div_eq_of_eq_mul_right (twoTo_pos _) whole
    rw [scaled, divided, roundDiv_mul _ (Nat.mul_pos positive (twoTo_pos _))]
  have word := x.word_eq
  have below : x.word.val < f.infinityWord := by simpa [isFinite] using finite
  rw [ofUnits, Nat.mul_div_cancel _ positive, ← excess, rounded, ← word, Nat.min_eq_left below.le,
    ofWord, dif_pos x.word.isLt]

/-- The number of a word whose exponent field and fraction are known. -/
theorem units_of_word {x : Binary f} {significand places : Nat}
    (low : twoTo f.fractionBits ≤ significand) (high : significand < twoTo (f.fractionBits + 1))
    (word : x.word.val = places * twoTo f.fractionBits + significand) :
    x.units = significand * twoTo places := by
  rw [twoTo_add, show twoTo 1 = 2 from rfl] at high
  have parts : x.word.val / twoTo f.fractionBits = places + 1 ∧
      x.word.val % twoTo f.fractionBits = significand - twoTo f.fractionBits := by
    refine (Nat.div_mod_unique (twoTo_pos _)).mpr ⟨?_, by omega⟩
    have next : twoTo f.fractionBits * (places + 1) =
        places * twoTo f.fractionBits + twoTo f.fractionBits := by ring
    omega
  have exponent : x.field = places + 1 := parts.1
  rw [units, step, if_neg (by omega), exponent, parts.2, Nat.add_sub_cancel,
    Nat.add_sub_of_le low]

/-- Every magnitude that is a whole number of its last places and below the format's range belongs
to a finite number. -/
theorem exists_units_eq {n : Nat} (whole : twoTo (excess f.fractionBits n) ∣ n)
    (room : excess f.fractionBits n + 2 < twoTo f.exponentBits) :
    ∃ x : Binary f, x.isFinite = true ∧ x.units = n := by
  have finite : ∀ {word : Nat} (small : word < f.infinityWord),
      (⟨false, word, small.trans f.infinityWord_lt⟩ : Binary f).isFinite = true :=
    fun small => decide_eq_true small
  by_cases small : n < twoTo f.fractionBits
  · have below : n < f.infinityWord := by
      calc n < 1 * twoTo f.fractionBits := by omega
        _ ≤ f.infinityWord := Nat.mul_le_mul_right _ (by omega)
    refine ⟨_, finite below, ?_⟩
    rw [units, field, if_pos (Nat.div_eq_of_lt small)]
  · obtain ⟨significand, split⟩ := whole
    obtain ⟨places, moved⟩ : ∃ places, places = excess f.fractionBits n := ⟨_, rfl⟩
    rw [← moved, Nat.mul_comm] at split
    rw [← moved] at room
    have filled : n ≠ 0 := by
      have := twoTo_pos f.fractionBits
      omega
    have leading : n.log2 = f.fractionBits + places := by
      have := (Nat.le_log2 filled).mpr (Nat.le_of_not_lt small)
      rw [excess] at moved
      omega
    -- The leading place of the magnitude is the leading place of the significand.
    obtain ⟨low, high⟩ := (Nat.log2_eq_iff filled).mp leading
    rw [split, Nat.pow_add] at low
    rw [split, Nat.add_right_comm, Nat.pow_add] at high
    replace low := Nat.le_of_mul_le_mul_right low (twoTo_pos places)
    replace high := Nat.lt_of_mul_lt_mul_right high
    have below : places * twoTo f.fractionBits + significand < f.infinityWord := by
      calc places * twoTo f.fractionBits + significand
          < places * twoTo f.fractionBits + 2 * twoTo f.fractionBits := by
            rw [Nat.pow_succ, Nat.mul_comm] at high
            exact Nat.add_lt_add_left high _
        _ = (places + 2) * twoTo f.fractionBits := by ring
        _ ≤ f.infinityWord := Nat.mul_le_mul_right _ (by omega)
    refine ⟨_, finite below, ?_⟩
    rw [units_of_word low high rfl, split]

/-! ### Between the two formats -/

theorem units_le_largest {x : Single} (finite : x.isFinite = true) :
    x.units ≤ (largest .single).units := by
  apply units_le_units
  have below : x.word.val < FloatFormat.single.infinityWord := by simpa [isFinite] using finite
  have top : (largest .single).word.val = FloatFormat.single.infinityWord - 1 := by decide +kernel
  omega

/-- Converting a number of which the other format has the magnitude. -/
theorem convert_eq {g : FloatFormat} {x : Binary g} {y : Binary f} (finite : x.isFinite = true)
    (finite' : y.isFinite = true)
    (same : x.units * twoTo f.unitExponent = y.units * twoTo g.unitExponent) :
    x.convert f = ⟨x.negative, y.word⟩ := by
  have number : x.isNaN = false := by
    simp only [isFinite, isNaN, decide_eq_true_eq, decide_eq_false_iff_not] at finite ⊢
    omega
  rw [convert, if_neg (by simp [number]), if_neg (by simp [finite]), same]
  exact ofUnits_units finite' x.negative (twoTo_pos _)

/-- A component is a number of the wide format. -/
theorem widen_spec {x : Single} (finite : x.isFinite = true) :
    x.widen.negative = x.negative ∧ x.widen.isFinite = true ∧
      x.widen.units * twoTo FloatFormat.single.unitExponent =
        x.units * twoTo FloatFormat.double.unitExponent := by
  -- A unit of the narrow format is `2 ^ 925` units of the wide one.
  obtain ⟨gap, size⟩ : ∃ gap, gap = 925 := ⟨_, rfl⟩
  have between : twoTo FloatFormat.double.unitExponent =
      twoTo gap * twoTo FloatFormat.single.unitExponent := by
    rw [size]
    decide +kernel
  have moved := excess_mul_le 52 x.units gap
  have whole : twoTo (excess 52 (x.units * twoTo gap)) ∣ x.units * twoTo gap := by
    have fewer : excess 52 (x.units * twoTo gap) ≤ excess 23 x.units + gap := by
      rw [excess.eq_1 23]
      omega
    calc twoTo (excess 52 (x.units * twoTo gap)) ∣ twoTo (excess 23 x.units + gap) :=
          Nat.pow_dvd_pow 2 fewer
      _ = twoTo (excess 23 x.units) * twoTo gap := twoTo_add _ _
      _ ∣ x.units * twoTo gap := Nat.mul_dvd_mul x.twoTo_excess_dvd (Nat.dvd_refl _)
  have room : excess 52 (x.units * twoTo gap) + 2 < twoTo 11 := by
    have range : x.units.log2 < 277 := by
      by_cases zero : x.units = 0
      · rw [zero]
        decide
      · exact log2_lt_of_lt_twoTo zero
          (Nat.lt_of_le_of_lt (units_le_largest finite) (by decide +kernel))
    rw [show twoTo 11 = 2048 from rfl]
    omega
  obtain ⟨y, finite', same⟩ := exists_units_eq (f := .double) whole room
  have scaled : x.units * twoTo FloatFormat.double.unitExponent =
      y.units * twoTo FloatFormat.single.unitExponent := by
    rw [same, between, Nat.mul_assoc]
  have wide : x.widen = ⟨x.negative, y.word⟩ := convert_eq finite finite' scaled
  rw [wide]
  exact ⟨rfl, finite', scaled.symm⟩

/-- Narrowing undoes widening. -/
theorem narrow_widen {x : Single} (finite : x.isFinite = true) : x.widen.narrow = x := by
  obtain ⟨sign, finite', same⟩ := widen_spec finite
  rw [narrow, convert_eq finite' finite same, sign]

/-- The comparison of words admits every number in the range. -/
theorem fitsSingle_of_atMost {x : Double} (small : x.AtMost (largest .single)) :
    x.fitsSingle = true := by
  have top : (largest .single).units * twoTo FloatFormat.double.unitExponent =
      (widen (largest .single)).units * twoTo FloatFormat.single.unitExponent := by decide +kernel
  rw [AtMost, top] at small
  exact decide_eq_true (word_le_of_units_le (Nat.le_of_mul_le_mul_right small (twoTo_pos _)))

theorem fitsSingle_widen {x : Single} (finite : x.isFinite = true) :
    x.widen.fitsSingle = true := by
  apply fitsSingle_of_atMost
  rw [AtMost, (widen_spec finite).2.2]
  exact Nat.mul_le_mul_right _ (units_le_largest finite)

end Binary
end SceneEdit
