import Mathlib.Data.Nat.Log
import SceneEdit.Number.Binary

/-!
# Ranges of floating-point numbers

Magnitudes of two formats are compared in units of both. A wide number that fits the narrow format
is finite and no larger than the largest narrow number, although only words are compared
(`fitsSingle_spec`), and then narrowing it does not overflow (`isFinite_narrow`): rounding a
quotient of units stays below infinity whenever the quotient is no larger than the largest number.
-/

namespace SceneEdit

namespace Binary

variable {f g : FloatFormat}

/-- A number of one format is no larger in magnitude than one of another. -/
def AtMost (x : Binary f) (y : Binary g) : Prop :=
  x.units * twoTo g.unitExponent ≤ y.units * twoTo f.unitExponent

/-- Words order as magnitudes do. -/
theorem units_le_units {x y : Binary f} (words : x.word.val ≤ y.word.val) : x.units ≤ y.units := by
  have positive := twoTo_pos f.fractionBits
  have split := Nat.div_add_mod x.word.val (twoTo f.fractionBits)
  have split' := Nat.div_add_mod y.word.val (twoTo f.fractionBits)
  have below := Nat.mod_lt x.word.val positive
  have fields : x.field ≤ y.field := Nat.div_le_div_right words
  rcases Nat.eq_or_lt_of_le fields with same | less
  · -- In one binade only the fractions differ.
    have fractions : x.word.val % twoTo f.fractionBits ≤ y.word.val % twoTo f.fractionBits := by
      unfold field at same
      rw [← same] at split'
      omega
    unfold units step
    rw [← same]
    split
    · exact words
    · exact Nat.mul_le_mul_right _ (Nat.add_le_add_left fractions _)
  · -- The next binade starts where the one below ends.
    have start : twoTo f.fractionBits * twoTo (y.field - 1) ≤ y.units := by
      rw [units, step, if_neg (by omega)]
      exact Nat.mul_le_mul_right _ (Nat.le_add_right _ _)
    refine Nat.le_trans ?_ start
    rw [units, step]
    split
    · rename_i none
      have small : x.word.val < twoTo f.fractionBits := by
        rw [field] at none
        rw [none, Nat.mul_zero] at split
        omega
      calc x.word.val ≤ twoTo f.fractionBits * 1 := by omega
        _ ≤ twoTo f.fractionBits * twoTo (y.field - 1) := Nat.mul_le_mul_left _ (twoTo_pos _)
    · calc (twoTo f.fractionBits + x.word.val % twoTo f.fractionBits) * twoTo (x.field - 1)
          ≤ (twoTo f.fractionBits * twoTo 1) * twoTo (x.field - 1) := by
            refine Nat.mul_le_mul_right _ ?_
            rw [show twoTo 1 = 2 from rfl]
            omega
        _ = twoTo f.fractionBits * twoTo (1 + (x.field - 1)) := by rw [Nat.mul_assoc, ← twoTo_add]
        _ ≤ twoTo f.fractionBits * twoTo (y.field - 1) := by
            refine Nat.mul_le_mul_left _ (Nat.pow_le_pow_right (by omega) ?_)
            omega

/-- The comparison of words decides finiteness and range. -/
theorem fitsSingle_spec {x : Double} (fits : x.fitsSingle = true) :
    x.isFinite = true ∧ x.AtMost (largest .single) := by
  have words : x.word.val ≤ (widen (largest .single)).word.val := by
    simpa [fitsSingle] using fits
  have finite : (widen (largest .single)).word.val < FloatFormat.double.infinityWord := by
    decide +kernel
  have exact : (widen (largest .single)).units * twoTo FloatFormat.single.unitExponent =
      (largest .single).units * twoTo FloatFormat.double.unitExponent := by decide +kernel
  refine ⟨by simpa [isFinite] using Nat.lt_of_le_of_lt words finite, ?_⟩
  rw [AtMost, ← exact]
  exact Nat.mul_le_mul_right _ (units_le_units words)

/-! ### Rounding -/

theorem roundDiv_le {n d bound : Nat} (positive : 0 < d) (le : n ≤ bound * d) :
    roundDiv n d ≤ bound := by
  have whole : n / d ≤ bound := Nat.div_le_of_le_mul (by rwa [Nat.mul_comm])
  have split := Nat.div_add_mod n d
  -- A quotient that is the bound leaves no remainder, and any smaller one has room for one more.
  have room : d ≤ 2 * (n % d) → n / d < bound := by
    intro up
    apply Nat.lt_of_le_of_ne whole
    intro same
    rw [same, Nat.mul_comm d bound] at split
    omega
  unfold roundDiv
  dsimp only
  split
  · exact whole
  · split
    · exact room (by omega)
    · split
      · exact whole
      · exact room (by omega)

theorem log2_lt_of_lt_twoTo {n k : Nat} (positive : n ≠ 0) (small : n < twoTo k) : n.log2 < k :=
  (Nat.log2_lt positive).mpr small

theorem isFinite_ofWord {word : Nat} (negative : Bool) (small : word < f.infinityWord) :
    (ofWord f negative word).isFinite = true := by
  rw [isFinite, ofWord, dif_pos (Nat.lt_trans small f.infinityWord_lt)]
  exact decide_eq_true small

/-- A quotient of units that is no larger than the largest narrow number rounds to a finite
one. -/
theorem isFinite_ofUnits {n d : Nat} (negative : Bool) (positive : 0 < d)
    (small : n ≤ (largest .single).units * d) :
    (ofUnits .single negative n d).isFinite = true := by
  have top : (largest .single).units = (twoTo 24 - 1) * twoTo 253 := by decide +kernel
  rw [top, Nat.mul_assoc, Nat.mul_comm (twoTo 253)] at small
  obtain ⟨shift, shifted⟩ : ∃ shift, shift = (n / d).log2 - 23 := ⟨_, rfl⟩
  have binade : roundDiv n (d * twoTo shift) ≤ twoTo 24 := by
    refine roundDiv_le (Nat.mul_pos positive (twoTo_pos _)) ?_
    have above : n / d < twoTo (shift + 24) :=
      Nat.lt_of_lt_of_le Nat.lt_log2_self (Nat.pow_le_pow_right (by omega) (by omega))
    have scaled := (Nat.div_lt_iff_lt_mul positive).mp above
    rw [twoTo_add, Nat.mul_comm (twoTo shift), Nat.mul_assoc, Nat.mul_comm (twoTo shift)] at scaled
    exact Nat.le_of_lt scaled
  have last : shift = 253 → roundDiv n (d * twoTo shift) ≤ twoTo 24 - 1 := by
    rintro rfl
    exact roundDiv_le (Nat.mul_pos positive (twoTo_pos _)) small
  have few : shift ≤ 253 := by
    by_cases zero : n / d = 0
    · rw [shifted, zero]
      decide
    · have size : n / d < twoTo 277 := by
        have : (twoTo 24 - 1) * twoTo 253 < twoTo 277 := by decide +kernel
        refine Nat.lt_of_le_of_lt (Nat.div_le_of_le_mul ?_) this
        rwa [Nat.mul_left_comm]
      have := log2_lt_of_lt_twoTo zero size
      omega
  have word : shift * twoTo 23 + roundDiv n (d * twoTo shift) <
      FloatFormat.single.infinityWord := by
    rw [show FloatFormat.single.infinityWord = 255 * twoTo 23 from rfl,
      show twoTo 23 = 8388608 from rfl]
    rw [show twoTo 24 = 16777216 from rfl] at binade last
    omega
  rw [shifted] at word
  exact isFinite_ofWord negative (Nat.lt_of_le_of_lt (Nat.min_le_left _ _) word)

/-- Narrowing a number that fits does not overflow. -/
theorem isFinite_narrow {x : Double} (fits : x.fitsSingle = true) : x.narrow.isFinite = true := by
  obtain ⟨finite, small⟩ := fitsSingle_spec fits
  have number : x.isNaN = false := by
    simp only [isFinite, isNaN, decide_eq_true_eq, decide_eq_false_iff_not] at finite ⊢
    omega
  rw [narrow, convert]
  simp only [number, finite, Bool.not_true, Bool.false_eq_true, if_false]
  exact isFinite_ofUnits x.negative (twoTo_pos _) small

/-- Fractions of a whole are finite. -/
theorem isFinite_ofRatio {n d : Nat} (negative : Bool) (positive : 0 < d) (proper : n ≤ d) :
    (ofRatio .single negative n d).isFinite = true := by
  refine isFinite_ofUnits negative positive ?_
  have : twoTo FloatFormat.single.unitExponent ≤ (largest .single).units := by decide +kernel
  rw [Nat.mul_comm]
  exact Nat.mul_le_mul this proper

end Binary
end SceneEdit
