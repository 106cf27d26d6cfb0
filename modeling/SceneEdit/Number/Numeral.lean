import SceneEdit.Number.Binary

/-!
# Reading numerals

A numeral is an optional sign and digits; a decimal numeral may have a point with digits on
either side of it, and an exponent. Integers are read exactly, whatever their size; whoever asked
for one checks its range.
-/

namespace SceneEdit.Numeral

/-- The value of a run of decimal digits. -/
def digitsValue (digits : List Char) : Nat :=
  digits.foldl (fun value c => 10 * value + (c.toNat - '0'.toNat)) 0

/-- The value of a text that is one or more decimal digits. -/
def natural? (text : List Char) : Option Nat :=
  if text ≠ [] ∧ text.all Char.isDigit then some (digitsValue text) else none

/-- A leading minus, and the text after an optional sign. -/
def splitSign : List Char → Bool × List Char
  | '-' :: rest => (true, rest)
  | '+' :: rest => (false, rest)
  | text => (false, text)

/-- An optional sign and digits. -/
def integer? (text : List Char) : Option Int :=
  let (negative, rest) := splitSign text
  (natural? rest).map fun n => if negative then -(n : Int) else n

/-- An integer of 64 bits. -/
def int64? (text : List Char) : Option Int :=
  (integer? text).filter fun i => decide (-(twoTo 63 : Int) ≤ i ∧ i < (twoTo 63 : Int))

/-- A natural number below `bound`, with an optional plus sign. -/
def unsigned? (bound : Nat) (text : List Char) : Option Nat :=
  let digits := match text with
    | '+' :: rest => rest
    | _ => text
  (natural? digits).filter (· < bound)

/-- The exponent after the digits of a decimal numeral; absent, it is zero. -/
def exponent? : List Char → Option Int
  | [] => some 0
  | c :: rest => if c = 'e' ∨ c = 'E' then integer? rest else none

/-- Digits with an optional point, then an optional exponent. -/
def unsignedDecimal? (negative : Bool) (text : List Char) : Option Double :=
  let whole := text.takeWhile Char.isDigit
  let afterWhole := text.dropWhile Char.isDigit
  let (fraction, rest) := match afterWhole with
    | '.' :: more => (more.takeWhile Char.isDigit, more.dropWhile Char.isDigit)
    | _ => ([], afterWhole)
  if whole = [] ∧ fraction = [] then none
  else (exponent? rest).map fun e =>
    Binary.ofDecimal .double negative (digitsValue (whole ++ fraction)) (e - fraction.length)

/-- A decimal numeral, or a word for infinity or for what is no number, in any case. -/
def decimal? (text : List Char) : Option Double :=
  let (negative, rest) := splitSign text
  let word := String.ofList (rest.map Char.toLower)
  if word = "inf" ∨ word = "infinity" then some (Binary.infinity .double negative)
  else if word = "nan" then some (Binary.nan .double)
  else unsignedDecimal? negative rest

end SceneEdit.Numeral
