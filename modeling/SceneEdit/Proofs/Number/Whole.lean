import SceneEdit.Proofs.Number.Exact

/-!
# Whole numbers past 64 bits

A whole number that is too large for 64 bits is rounded to the wide format, whose numbers are
2 ^ 11 apart from 2 ^ 63 on. It is rounded to 2 ^ 63 up to the middle of the first step, the middle
included since the word of 2 ^ 63 is even, and to something larger from there on (`nearest_of_le`,
`nearest_of_lt`). The argument is about words: they order as magnitudes do, so it is enough to
compare the word of a rounded number with that of 2 ^ 63.
-/

namespace SceneEdit

theorem le_roundDiv {n d bound : Nat} (positive : 0 < d) (le : bound * d ≤ n) :
    bound ≤ roundDiv n d := by
  have whole : bound ≤ n / d := (Nat.le_div_iff_mul_le positive).mpr le
  unfold roundDiv
  dsimp only
  split
  · exact whole
  · split
    · omega
    · split <;> omega

/-- A common factor does not matter to a rounded quotient. -/
theorem roundDiv_mul_right (n d : Nat) {factor : Nat} (positive : 0 < factor) :
    roundDiv (n * factor) (d * factor) = roundDiv n d := by
  have less (a b : Nat) : 2 * (a * factor) < b * factor ↔ 2 * a < b := by
    rw [← Nat.mul_assoc]
    exact Nat.mul_lt_mul_right positive
  have more (a b : Nat) : b * factor < 2 * (a * factor) ↔ b < 2 * a := by
    rw [← Nat.mul_assoc]
    exact Nat.mul_lt_mul_right positive
  simp only [roundDiv, Nat.mul_div_mul_right n d positive, Nat.mul_mod_mul_right, less, more]

namespace Binary

/-- The word of 2 ^ 63. -/
def boundWord : Nat := 1086 * twoTo 52

/-- The word that a whole number past 64 bits is rounded to, before it is cut off at infinity. -/
def wholeWord (n : Nat) : Nat :=
  (n.log2 + 1022) * twoTo 52 + roundDiv (n * twoTo 52) (twoTo n.log2)

theorem ofRatio_whole (negative : Bool) {n : Nat} (positive : n ≠ 0) :
    ofRatio .double negative n 1 =
      ofWord .double negative (min (wholeWord n) FloatFormat.double.infinityWord) := by
  have places : twoTo FloatFormat.double.unitExponent = twoTo 52 * twoTo 1022 := twoTo_add 52 1022
  have shift : (n * (twoTo 52 * twoTo 1022)).log2 - 52 = n.log2 + 1022 := by
    rw [← twoTo_add, log2_mul_twoTo positive]
    omega
  have cancelled : roundDiv (n * (twoTo 52 * twoTo 1022)) (1 * twoTo (n.log2 + 1022)) =
      roundDiv (n * twoTo 52) (twoTo n.log2) := by
    rw [Nat.one_mul, twoTo_add, ← Nat.mul_assoc]
    exact roundDiv_mul_right _ _ (twoTo_pos 1022)
  rw [ofRatio, ofUnits, places, Nat.div_one]
  show ofWord _ _ (min
    ((Nat.log2 _ - 52) * twoTo 52 + roundDiv _ (1 * twoTo (Nat.log2 _ - 52))) _) = _
  rw [shift, cancelled, wholeWord]

/-! ### Words past that of 2 ^ 63 -/

theorem wholeWord_of_log2 {n : Nat} (top : n.log2 = 63) :
    wholeWord n = 1085 * twoTo 52 + roundDiv n (twoTo 11) := by
  rw [wholeWord, top, show twoTo 63 = twoTo 11 * twoTo 52 from rfl,
    roundDiv_mul_right _ _ (twoTo_pos 52)]

theorem boundWord_lt_of_log2 {n : Nat} (top : 63 < n.log2) : boundWord < wholeWord n := by
  have positive : n ≠ 0 := by
    rintro rfl
    simp at top
  have significand : twoTo 52 ≤ roundDiv (n * twoTo 52) (twoTo n.log2) := by
    refine le_roundDiv (twoTo_pos _) ?_
    rw [Nat.mul_comm]
    exact Nat.mul_le_mul_right _ (Nat.log2_self_le positive)
  have exponent : 1086 * twoTo 52 ≤ (n.log2 + 1022) * twoTo 52 :=
    Nat.mul_le_mul_right _ (by omega)
  have := twoTo_pos 52
  rw [boundWord, wholeWord]
  omega

/-- Up to the middle of the step that follows it, numbers are rounded to 2 ^ 63. -/
theorem wholeWord_of_le {n : Nat} (large : twoTo 63 ≤ n) (close : n ≤ twoTo 63 + 1024) :
    wholeWord n = boundWord := by
  rw [show twoTo 63 = 9223372036854775808 from rfl] at large close
  have top : n.log2 = 63 := (Nat.log2_eq_iff (by omega)).mpr (by omega)
  rw [wholeWord_of_log2 top, boundWord, roundDiv, show twoTo 11 = 2048 from rfl,
    show twoTo 52 = 4503599627370496 from rfl]
  split
  · omega
  · split
    · omega
    · split <;> omega

/-- Past the middle of that step, they are rounded to something larger. -/
theorem boundWord_lt_of_lt {n : Nat} (far : twoTo 63 + 1024 < n) : boundWord < wholeWord n := by
  rw [show twoTo 63 = 9223372036854775808 from rfl] at far
  have low : 63 ≤ n.log2 := (Nat.le_log2 (by omega)).mpr (by omega)
  obtain top | top := Nat.eq_or_lt_of_le low
  · have small : n < 2 ^ (n.log2 + 1) := Nat.lt_log2_self
    rw [← top] at small
    rw [wholeWord_of_log2 top.symm, boundWord, roundDiv, show twoTo 11 = 2048 from rfl,
      show twoTo 52 = 4503599627370496 from rfl]
    split
    · omega
    · split
      · omega
      · split <;> omega
  · exact boundWord_lt_of_log2 top

/-! ### The integers that are read back -/

theorem toInt?_of_units {f : FloatFormat} {x : Binary f} {magnitude : Nat}
    (finite : x.isFinite = true) (value : x.units = magnitude * twoTo f.unitExponent) :
    x.toInt? = some (if x.negative then -(magnitude : Int) else magnitude) := by
  have whole : x.units % twoTo f.unitExponent = 0 := by rw [value, Nat.mul_mod_left]
  have quotient : x.units / twoTo f.unitExponent = magnitude := by
    rw [value, Nat.mul_div_cancel _ (twoTo_pos _)]
  rw [toInt?, finite, whole, if_pos (by decide)]
  dsimp only
  rw [← Int.natCast_ediv, quotient]

theorem natAbs_of_toInt? {f : FloatFormat} {x : Binary f} {i : Int} (whole : x.toInt? = some i) :
    i.natAbs = x.units / twoTo f.unitExponent := by
  rw [toInt?] at whole
  split at whole
  · dsimp only at whole
    rw [← Int.natCast_ediv] at whole
    rw [← Option.some.inj whole]
    split
    · rw [Int.natAbs_neg, Int.natAbs_natCast]
    · rw [Int.natAbs_natCast]
  · cases whole

/-- The numbers of the binade that 2 ^ 63 starts, by their significands. -/
theorem units_of_significand {x : Double} {significand : Nat} (low : twoTo 52 ≤ significand)
    (high : significand < twoTo 53) (word : x.word.val = 1085 * twoTo 52 + significand) :
    x.units = significand * twoTo 11 * twoTo FloatFormat.double.unitExponent := by
  rw [units_of_word low high word, Nat.mul_assoc,
    show FloatFormat.double.unitExponent = 1074 from rfl, ← twoTo_add]

theorem nearest_of_le (negative : Bool) {n : Nat} (large : twoTo 63 ≤ n)
    (close : n ≤ twoTo 63 + 1024) :
    (ofRatio .double negative n 1).toInt? =
      some (if negative then -(twoTo 63 : Int) else (twoTo 63 : Int)) := by
  have positive : n ≠ 0 := by
    have := twoTo_pos 63
    omega
  have finite : boundWord < FloatFormat.double.infinityWord := by decide
  have room : boundWord < twoTo FloatFormat.double.width :=
    Nat.lt_trans finite FloatFormat.double.infinityWord_lt
  obtain ⟨x, rounded⟩ : ∃ x : Double, x = ⟨negative, boundWord, room⟩ := ⟨_, rfl⟩
  have value : x.units = twoTo 63 * twoTo FloatFormat.double.unitExponent := by
    rw [units_of_significand (Nat.le_refl _) (by decide) (by rw [rounded]; rfl), ← twoTo_add 52 11]
  have proper : x.isFinite = true := by
    rw [rounded]
    exact decide_eq_true finite
  rw [ofRatio_whole negative positive, wholeWord_of_le large close, Nat.min_eq_left finite.le,
    ofWord, dif_pos room, ← rounded, toInt?_of_units proper value, rounded]

theorem nearest_of_lt (negative : Bool) {n : Nat} (far : twoTo 63 + 1024 < n) {i : Int}
    (whole : (ofRatio .double negative n 1).toInt? = some i) : twoTo 63 < i.natAbs := by
  have finite : boundWord + 1 < FloatFormat.double.infinityWord := by decide
  obtain ⟨word, rounded⟩ : ∃ word, word = min (wholeWord n) FloatFormat.double.infinityWord :=
    ⟨_, rfl⟩
  have next : boundWord + 1 ≤ word := by
    have := boundWord_lt_of_lt far
    omega
  have room : word < twoTo FloatFormat.double.width := by
    have := FloatFormat.double.infinityWord_lt
    omega
  rw [ofRatio_whole negative (by omega), ← rounded, ofWord, dif_pos room] at whole
  obtain ⟨x, same⟩ : ∃ x : Double, x = ⟨negative, word, room⟩ := ⟨_, rfl⟩
  obtain ⟨y, first⟩ : ∃ y : Double,
    y = ⟨false, boundWord + 1, Nat.lt_trans finite FloatFormat.double.infinityWord_lt⟩ := ⟨_, rfl⟩
  have larger : y.units ≤ x.units := by
    refine units_le_units ?_
    rw [first, same]
    exact next
  have step : y.units = (twoTo 52 + 1) * twoTo 11 * twoTo FloatFormat.double.unitExponent :=
    units_of_significand (Nat.le_succ _) (by decide) (by rw [first]; rfl)
  have quotient : (twoTo 52 + 1) * twoTo 11 ≤ x.units / twoTo FloatFormat.double.unitExponent :=
    (Nat.le_div_iff_mul_le (twoTo_pos _)).mpr (step ▸ larger)
  rw [← same] at whole
  rw [natAbs_of_toInt? whole]
  exact Nat.lt_of_lt_of_le (by decide) quotient

/-! ### Numerals without a point -/

/-- A numeral of too many digits is infinite without its value being looked at. -/
theorem ofDecimal_whole (negative : Bool) {n : Nat} (positive : n ≠ 0) :
    ofDecimal .double negative n 0 =
      if 400 < (Nat.toDigits 10 n).length then infinity .double negative
      else ofRatio .double negative n 1 := by
  have long : decimalReach < ((Nat.toDigits 10 n).length : Int) + 0 ↔
      400 < (Nat.toDigits 10 n).length := by
    rw [decimalReach]
    omega
  have short : ¬ ((Nat.toDigits 10 n).length : Int) + 0 < -decimalReach := by
    rw [decimalReach]
    omega
  rw [ofDecimal, if_neg positive, if_neg short, if_pos (Int.le_refl 0),
    show n * tenTo (Int.toNat 0) = n from Nat.mul_one n]
  simp only [long]

theorem decimal_of_le (negative : Bool) {n : Nat} (large : twoTo 63 ≤ n)
    (close : n ≤ twoTo 63 + 1024) :
    (ofDecimal .double negative n 0).toInt? =
      some (if negative then -(twoTo 63 : Int) else (twoTo 63 : Int)) := by
  have positive : n ≠ 0 := by
    have := twoTo_pos 63
    omega
  have few : (Nat.toDigits 10 n).length ≤ 20 := by
    have bound : twoTo 63 + 1024 < 10 ^ 20 := by decide
    exact (Nat.length_toDigits_le_iff (by decide) (by decide)).mpr (by omega)
  rw [ofDecimal_whole negative positive, if_neg (by omega)]
  exact nearest_of_le negative large close

theorem decimal_of_lt (negative : Bool) {n : Nat} (far : twoTo 63 + 1024 < n) {i : Int}
    (whole : (ofDecimal .double negative n 0).toInt? = some i) : twoTo 63 < i.natAbs := by
  rw [ofDecimal_whole negative (by omega)] at whole
  split at whole
  · have none : (infinity .double negative).toInt? = none := rfl
    rw [none] at whole
    cases whole
  · exact nearest_of_lt negative far whole

end Binary
end SceneEdit
