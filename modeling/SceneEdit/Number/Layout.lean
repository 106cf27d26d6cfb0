import SceneEdit.Number.Decimal

/-!
# Laying out numbers

The digits of a number are settled by `Binary.shortest`; a `NumberLayout` settles how they are
written: where positional writing ends, how a whole number ends and how an exponent is signed.
-/

namespace SceneEdit

/-- The decisions of one way to write floating-point numbers. -/
structure NumberLayout where
  /-- Between two equally near decimals. -/
  tie : Tie
  /-- Whether a number with this decimal exponent is written positionally. -/
  positional : Int → Bool
  /-- What follows the last digit of a whole number. -/
  wholeTail : String
  /-- What stands before an exponent that is not negative. -/
  plus : String

namespace NumberLayout

/-- Digits written positionally; `point` counts the digits before the point. -/
def positionalText (layout : NumberLayout) (digits : List Char) (point : Int) : String :=
  let zeros := fun n : Nat => List.replicate n '0'
  if point ≤ 0 then "0." ++ String.ofList (zeros (-point).toNat ++ digits)
  else if (digits.length : Int) ≤ point then
    String.ofList (digits ++ zeros (point.toNat - digits.length)) ++ layout.wholeTail
  else String.ofList (digits.take point.toNat) ++ "." ++ String.ofList (digits.drop point.toNat)

/-- Digits written with an exponent. -/
def scientificText (layout : NumberLayout) (digits : List Char) (exponent : Int) : String :=
  let mantissa := match digits with
    | [] => ""
    | [d] => d.toString
    | d :: rest => d.toString ++ "." ++ String.ofList rest
  let sign := if exponent < 0 then "-" else layout.plus
  mantissa ++ "e" ++ sign ++ toString exponent.natAbs

/-- A decimal without its sign. -/
def magnitudeText (layout : NumberLayout) (d : Decimal) : String :=
  let digits := Nat.toDigits 10 d.digits
  let exponent := d.exponent + digits.length - 1
  if layout.positional exponent then layout.positionalText digits (exponent + 1)
  else layout.scientificText digits exponent

/-- The text of a number. -/
def write {f : FloatFormat} (layout : NumberLayout) (x : Binary f) : String :=
  if x.isNaN then "NaN"
  else
    let sign := if x.negative then "-" else ""
    if x.isFinite then sign ++ layout.magnitudeText (x.shortest layout.tie) else sign ++ "inf"

/-- Numbers in messages: never an exponent, and whole numbers without a point. -/
def message : NumberLayout := ⟨.up, fun _ => true, "", ""⟩

/-- Components in log lines: a point always, an exponent outside `10⁻⁴ … 10¹⁶`. -/
def component : NumberLayout := ⟨.up, fun e => decide (-4 ≤ e ∧ e ≤ 15), ".0", ""⟩

end NumberLayout
end SceneEdit
