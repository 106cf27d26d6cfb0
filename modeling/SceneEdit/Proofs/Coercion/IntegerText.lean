import Mathlib.Data.List.TakeWhile
import SceneEdit.Coercion.Basic
import SceneEdit.Proofs.Log
import SceneEdit.Proofs.Number.Whole

/-!
# Texts that write integers

An optional sign and decimal digits write an integer, and a conversion to an integer type reads
that integer if it has 64 bits. Otherwise the text is read again as a decimal numeral, which is
rounded to a float, and only then is the range looked at. Nothing above the range comes back into
it, since 2 ^ 63 is a float. Below the range, -2 ^ 63 is a float too, and it is in the range:
everything that is rounded to it, which is up to 1024 below it, is read as -2 ^ 63
(`integer_text_converts`). For the narrow type all of this is out of range anyway.
-/

namespace SceneEdit

namespace Numeral

/-- A text is an optional sign and decimal digits, and writes an integer. -/
inductive Writes : List Char → Int → Prop
  | unsigned {digits : List Char} (given : digits ≠ []) (each : ∀ c ∈ digits, c.isDigit = true) :
      Writes digits (Nat.ofDigitChars 10 digits 0)
  | plus {digits : List Char} (given : digits ≠ []) (each : ∀ c ∈ digits, c.isDigit = true) :
      Writes ('+' :: digits) (Nat.ofDigitChars 10 digits 0)
  | minus {digits : List Char} (given : digits ≠ []) (each : ∀ c ∈ digits, c.isDigit = true) :
      Writes ('-' :: digits) (-Nat.ofDigitChars 10 digits 0)

/-- An integer, given by its sign and its magnitude. -/
def signed (negative : Bool) (magnitude : Nat) : Int :=
  if negative then -(magnitude : Int) else magnitude

theorem natural?_digits {digits : List Char} (given : digits ≠ [])
    (each : ∀ c ∈ digits, c.isDigit = true) :
    natural? digits = some (Nat.ofDigitChars 10 digits 0) := by
  rw [natural?, if_pos ⟨given, List.all_eq_true.mpr each⟩, digitsValue, ← Nat.ofDigitChars_eq_foldl]

/-- Digits as a decimal numeral, without a point and an exponent. -/
theorem unsignedDecimal?_digits (negative : Bool) {digits : List Char} (given : digits ≠ [])
    (each : ∀ c ∈ digits, c.isDigit = true) :
    unsignedDecimal? negative digits =
      some (Binary.ofDecimal .double negative (Nat.ofDigitChars 10 digits 0) 0) := by
  have taken : digits.takeWhile Char.isDigit = digits := List.takeWhile_eq_self_iff.mpr each
  have dropped : digits.dropWhile Char.isDigit = [] := List.dropWhile_eq_nil_iff.mpr each
  rw [unsignedDecimal?, taken, dropped]
  simp only [given, false_and, if_false, List.append_nil, exponent?, Option.map_some,
    List.length_nil, digitsValue, ← Nat.ofDigitChars_eq_foldl]
  rfl

theorem toLower_of_isDigit {c : Char} (digit : c.isDigit = true) : c.toLower = c := by
  have range : 48 ≤ c.toNat ∧ c.toNat ≤ 57 := Char.isDigit_iff_toNat.mp digit
  refine dif_neg fun upper => ?_
  have letter : 65 ≤ c.toNat := upper.1
  omega

/-- Digits are no word. -/
theorem ne_word_of_digits {digits : List Char} (given : digits ≠ [])
    (each : ∀ c ∈ digits, c.isDigit = true) {letter : Char} (word : List Char)
    (first : letter.isDigit = false) :
    String.ofList (digits.map Char.toLower) ≠ String.ofList (letter :: word) := by
  obtain ⟨c, rest, rfl⟩ := List.exists_cons_of_ne_nil given
  intro same
  have digit := each c List.mem_cons_self
  obtain ⟨here, -⟩ := List.cons.inj (String.ofList_injective same)
  rw [← here, toLower_of_isDigit digit, digit] at first
  cases first

theorem splitSign_digits {digits : List Char} (given : digits ≠ [])
    (each : ∀ c ∈ digits, c.isDigit = true) : splitSign digits = (false, digits) := by
  obtain ⟨c, rest, rfl⟩ := List.exists_cons_of_ne_nil given
  have digit := each c List.mem_cons_self
  unfold splitSign
  split
  · rename_i same
    cases same
    cases digit
  · rename_i same
    cases same
    cases digit
  · rfl

/-- What is read from a text that writes an integer: exactly that as an integer, and as a decimal
numeral its magnitude rounded. -/
theorem exists_magnitude_of_writes {text : List Char} {n : Int} (written : Writes text n) :
    ∃ negative magnitude, n = signed negative magnitude ∧ integer? text = some n ∧
      decimal? text = some (Binary.ofDecimal .double negative magnitude 0) := by
  have read {negative : Bool} {digits : List Char} (given : digits ≠ [])
      (each : ∀ c ∈ digits, c.isDigit = true) (split : splitSign text = (negative, digits)) :
      integer? text = some (signed negative (Nat.ofDigitChars 10 digits 0)) ∧
        decimal? text =
          some (Binary.ofDecimal .double negative (Nat.ofDigitChars 10 digits 0) 0) := by
    constructor
    · rw [integer?, split]
      dsimp only
      rw [natural?_digits given each]
      rfl
    · have finite : ¬ (String.ofList (digits.map Char.toLower) = "inf" ∨
          String.ofList (digits.map Char.toLower) = "infinity") := by
        rintro (same | same)
        · exact ne_word_of_digits given each ['n', 'f'] rfl same
        · exact ne_word_of_digits given each ['n', 'f', 'i', 'n', 'i', 't', 'y'] rfl same
      have number : String.ofList (digits.map Char.toLower) ≠ "nan" :=
        ne_word_of_digits given each ['a', 'n'] rfl
      rw [decimal?, split]
      dsimp only
      rw [if_neg finite, if_neg number, unsignedDecimal?_digits negative given each]
  cases written with
  | unsigned given each => exact ⟨false, _, rfl, read given each (splitSign_digits given each)⟩
  | plus given each => exact ⟨false, _, rfl, read given each rfl⟩
  | minus given each => exact ⟨true, _, rfl, read given each rfl⟩

end Numeral

namespace Coercion

/-! ### Floats that are read back -/

theorem integral_of_large {x : Double}
    (large : ∀ i, x.toInt? = some i → fitsLong i = false) :
    ∃ reason, integral x = .error reason := by
  rw [integral]
  split
  · exact ⟨_, rfl⟩
  · rename_i i whole
    rw [large i whole]
    exact ⟨_, rfl⟩

/-- An integer below the range, but not by more than half a step, is rounded into it. -/
theorem integral_of_close {magnitude : Nat} (large : twoTo 63 ≤ magnitude)
    (close : magnitude ≤ twoTo 63 + 1024) :
    integral (Binary.ofDecimal .double true magnitude 0) = .ok (-(twoTo 63 : Int)) := by
  rw [integral, Binary.decimal_of_le true large close]
  rfl

/-- Any other integer that is out of the range stays out of it. -/
theorem integral_of_far {negative : Bool} {magnitude : Nat} (large : twoTo 63 ≤ magnitude)
    (far : negative = true → twoTo 63 + 1024 < magnitude) :
    ∃ reason, integral (Binary.ofDecimal .double negative magnitude 0) = .error reason := by
  refine integral_of_large fun i whole => ?_
  by_cases close : magnitude ≤ twoTo 63 + 1024
  · have above : negative = false := by
      cases negative with
      | false => rfl
      | true => exact absurd (far rfl) (by omega)
    rw [above, Binary.decimal_of_le false large close] at whole
    cases whole
    rfl
  · have past := Binary.decimal_of_lt negative (by omega) whole
    exact decide_eq_false (by omega)

/-! ### Integers of 64 bits and of 32 bits -/

/-- What a text that writes an integer is read as. -/
theorem toLong_text {text : String} {n : Int}
    (written : Numeral.Writes (Text.trimmed text.toList) n) :
    (-(twoTo 63 : Int) ≤ n ∧ n < twoTo 63 → toLong (.str text) = .ok n) ∧
      (-(twoTo 63 : Int) - 1024 ≤ n ∧ n < -(twoTo 63 : Int) →
        toLong (.str text) = .ok (-(twoTo 63 : Int))) ∧
      (n < -(twoTo 63 : Int) - 1024 ∨ (twoTo 63 : Int) ≤ n →
        ∃ reason, toLong (.str text) = .error reason) := by
  obtain ⟨negative, magnitude, value, exact, rounded⟩ := Numeral.exists_magnitude_of_writes written
  have read : toLong (.str text) =
      if -(twoTo 63 : Int) ≤ n ∧ n < twoTo 63 then .ok n
      else integral (Binary.ofDecimal .double negative magnitude 0) := by
    rw [toLong, Numeral.int64?, exact, Option.filter]
    simp only [decide_eq_true_eq]
    by_cases fits : -(twoTo 63 : Int) ≤ n ∧ n < twoTo 63
    · rw [if_pos fits, if_pos fits]
    · rw [if_neg fits, if_neg fits, rounded]
  refine ⟨fun fits => ?_, fun close => ?_, fun far => ?_⟩
  · rw [read, if_pos fits]
  · rw [read, if_neg (by omega)]
    cases negative with
    | false =>
        have above : n = magnitude := value
        omega
    | true =>
        have below : n = -(magnitude : Int) := value
        exact integral_of_close (by omega) (by omega)
  · rw [read, if_neg (by omega)]
    cases negative with
    | false =>
        have above : n = magnitude := value
        exact integral_of_far (by omega) (by rintro ⟨⟩)
    | true =>
        have below : n = -(magnitude : Int) := value
        have positive := twoTo_pos 63
        exact integral_of_far (by omega) fun _ => by omega

theorem toInt_text {text : String} {n : Int}
    (written : Numeral.Writes (Text.trimmed text.toList) n) :
    (-(twoTo 31 : Int) ≤ n ∧ n < twoTo 31 → toInt (.str text) = .ok n) ∧
      (n < -(twoTo 31 : Int) ∨ (twoTo 31 : Int) ≤ n →
        ∃ reason, toInt (.str text) = .error reason) := by
  have inside : (twoTo 31 : Int) < twoTo 63 := by decide
  obtain ⟨exact, rounded, refused⟩ := toLong_text written
  have wide {i : Int} (read : toLong (.str text) = .ok i)
      (large : i < -(twoTo 31 : Int) ∨ (twoTo 31 : Int) ≤ i) :
      ∃ reason, toInt (.str text) = .error reason := by
    have narrow : fitsInt i = false := decide_eq_false (by omega)
    rw [toInt, read]
    show ∃ reason, (if fitsInt i then _ else _) = _
    rw [narrow]
    exact ⟨_, rfl⟩
  constructor
  · intro fits
    have narrow : fitsInt n = true := decide_eq_true fits
    rw [toInt, exact ⟨by omega, by omega⟩]
    exact if_pos narrow
  · intro large
    by_cases fits : -(twoTo 63 : Int) ≤ n ∧ n < twoTo 63
    · exact wide (exact fits) large
    · by_cases close : -(twoTo 63 : Int) - 1024 ≤ n ∧ n < -(twoTo 63 : Int)
      · exact wide (rounded close) (by omega)
      · obtain ⟨reason, failed⟩ := refused (by omega)
        rw [toInt, failed]
        exact ⟨reason, rfl⟩

/-- A text that writes an integer is converted to it if it is in the range, and is refused
otherwise, but for the 1024 integers just below the range of 64 bits. Those give the lowest integer
of the range. -/
theorem integer_text_converts (env : Environment) (field : String) (current : Option Value)
    (text : String) (n : Int) (written : Numeral.Writes (Text.trimmed text.toList) n) :
    let outcome target := (coerce env field (.str text) target current).result
    (-(twoTo 31 : Int) ≤ n ∧ n < twoTo 31 → outcome .int = .ok (.int n)) ∧
    (n < -(twoTo 31 : Int) ∨ (twoTo 31 : Int) ≤ n →
      ∃ reason, outcome .int = .error (fieldError field .int reason)) ∧
    (-(twoTo 63 : Int) ≤ n ∧ n < twoTo 63 → outcome .long = .ok (.int n)) ∧
    (-(twoTo 63 : Int) - 1024 ≤ n ∧ n < -(twoTo 63 : Int) →
      outcome .long = .ok (.int (-(twoTo 63 : Int)))) ∧
    (n < -(twoTo 63 : Int) - 1024 ∨ (twoTo 63 : Int) ≤ n →
      ∃ reason, outcome .long = .error (fieldError field .long reason)) := by
  intro outcome
  have narrow : outcome .int =
      ((toInt (.str text)).map Value.int).mapError (fieldError field .int) := by
    show (coerce env field (.str text) .int current).result = _
    rw [coerce]
    rfl
  have wide : outcome .long =
      ((toLong (.str text)).map Value.int).mapError (fieldError field .long) := by
    show (coerce env field (.str text) .long current).result = _
    rw [coerce]
    rfl
  obtain ⟨exact, refused⟩ := toInt_text written
  obtain ⟨exact', rounded, refused'⟩ := toLong_text written
  refine ⟨fun fits => ?_, fun large => ?_, fun fits => ?_, fun close => ?_, fun far => ?_⟩
  · rw [narrow, exact fits]
    rfl
  · obtain ⟨reason, failed⟩ := refused large
    rw [narrow, failed]
    exact ⟨reason, rfl⟩
  · rw [wide, exact' fits]
    rfl
  · rw [wide, rounded close]
    rfl
  · obtain ⟨reason, failed⟩ := refused' far
    rw [wide, failed]
    exact ⟨reason, rfl⟩

/-! ### The next integer below -/

/-- A blank, a minus and the digits of 2 ^ 63 + 1. -/
theorem writes_next_below :
    Numeral.Writes (Text.trimmed " -9223372036854775809".toList) (-9223372036854775809) := by
  have text : Text.trimmed " -9223372036854775809".toList =
      '-' :: "9223372036854775809".toList := by decide +kernel
  have value : Nat.ofDigitChars 10 "9223372036854775809".toList 0 = 9223372036854775809 := by
    decide +kernel
  have digits : ∀ c ∈ "9223372036854775809".toList, c.isDigit = true :=
    List.all_eq_true.mp (by decide +kernel)
  have written := Numeral.Writes.minus (by decide +kernel) digits
  rwa [value, ← text] at written

/-- The next integer below the range of 64 bits is refused for the narrow type only. -/
theorem integer_text_converts_of_next_below :
    (coerce {} "f" (.str " -9223372036854775809") .long none).result =
        .ok (.int (-9223372036854775808)) ∧
      ∃ reason, (coerce {} "f" (.str " -9223372036854775809") .int none).result =
        .error (fieldError "f" .int reason) := by
  obtain ⟨-, refused, -, rounded, -⟩ :=
    integer_text_converts {} "f" none " -9223372036854775809" _ writes_next_below
  exact ⟨rounded (by decide), refused (Or.inl (by decide))⟩

/-- The next integer below the range is converted to the lowest integer of the range, so a text is
not always converted to the integer that it writes, or refused. -/
theorem integer_text_not_exact :
    (coerce {} "f" (.str " -9223372036854775809") .long none).result =
        .ok (.int (-9223372036854775808)) ∧
      ¬ ∀ text n value, Numeral.Writes (Text.trimmed text.toList) n →
        (coerce {} "f" (.str text) .long none).result = .ok value → value = .int n := by
  have rounded : toLong (.str " -9223372036854775809") = .ok (-9223372036854775808) :=
    (toLong_text writes_next_below).2.1 (by decide)
  have converted : (coerce {} "f" (.str " -9223372036854775809") .long none).result =
      .ok (.int (-9223372036854775808)) := by
    rw [coerce]
    show (forField "f" .long ((toLong (.str " -9223372036854775809")).map Value.int)).result = _
    rw [rounded]
    rfl
  refine ⟨converted, fun claimed => ?_⟩
  cases claimed _ _ _ writes_next_below converted

end Coercion
end SceneEdit
