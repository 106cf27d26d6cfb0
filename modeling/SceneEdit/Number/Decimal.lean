import SceneEdit.Number.Binary

/-!
# Shortest decimals

The decimal written for a floating-point number has the fewest digits that read back as that
number, and among those it is the nearest. A decimal reads back exactly if it lies between the
midpoints to the two neighbours; the midpoints themselves belong to numbers with an even word.
The search goes from coarse decimal grids to fine ones and compares natural numbers only.
-/

namespace SceneEdit

/-- The decimal `digits · 10 ^ exponent`. -/
structure Decimal where
  digits : Nat
  exponent : Int
  deriving DecidableEq, Repr

/-- Which of two equally near decimals is taken. -/
inductive Tie where
  | even
  | up
  deriving DecidableEq, Repr

namespace Decimal

/-- The same decimal without trailing zeros among its digits. -/
def trim (digits : Nat) (exponent : Int) : Decimal :=
  if h : digits ≠ 0 ∧ digits % 10 = 0 then trim (digits / 10) (exponent + 1)
  else ⟨digits, exponent⟩
termination_by digits
decreasing_by omega

end Decimal

namespace Binary

variable {f : FloatFormat}

/-- Four times the midpoint to the next smaller magnitude. Below a power of two the neighbours
are only half as far apart. -/
def lowerMidpoint (x : Binary f) : Nat :=
  if x.word.val % twoTo f.fractionBits = 0 ∧ 1 < x.field then 4 * x.units - x.step
  else 4 * x.units - 2 * x.step

/-- Four times the midpoint to the next larger magnitude. -/
def upperMidpoint (x : Binary f) : Nat := 4 * x.units + 2 * x.step

/-- Whether the decimal `n · 10 ^ k` reads back as the magnitude of `x`; `p / q` is four times
`10 ^ k` in units. -/
def readsBack (x : Binary f) (p q n : Nat) : Bool :=
  if x.word.val % 2 = 0 then x.lowerMidpoint * q ≤ n * p && n * p ≤ x.upperMidpoint * q
  else x.lowerMidpoint * q < n * p && n * p < x.upperMidpoint * q

/-- The multiple of `10 ^ k` nearest to the magnitude of `x` among those that read back. -/
def onGrid (x : Binary f) (tie : Tie) (k : Int) : Option Nat :=
  let p := 4 * twoTo f.unitExponent * tenTo k.toNat
  let q := tenTo (-k).toNat
  let below := 4 * x.units * q / p
  let twice := 2 * (4 * x.units * q % p)
  match x.readsBack p q below, x.readsBack p q (below + 1) with
  | true, true =>
    if twice < p then some below
    else if p < twice then some (below + 1)
    else match tie with
      | .even => some (below + below % 2)
      | .up => some (below + 1)
  | true, false => some below
  | false, true => some (below + 1)
  | false, false => none

/-- The decimal exponent of a magnitude, or one more. -/
def leadingExponent (x : Binary f) : Int :=
  let one := twoTo f.unitExponent
  if one ≤ x.units then ((Nat.toDigits 10 (x.units / one)).length : Int) - 1
  else 1 - ((Nat.toDigits 10 (one / x.units)).length : Int)

/-- Decimal grids tried: seventeen digits always suffice, and the first may be one too coarse. -/
def gridCount : Nat := 18

/-- The decimal with the fewest digits that reads back as the magnitude of a finite number. -/
def shortest (x : Binary f) (tie : Tie) : Decimal :=
  if x.isZero then ⟨0, 0⟩
  else
    let grids := (List.range gridCount).map fun i : Nat => x.leadingExponent - i
    match grids.findSome? fun k => (x.onGrid tie k).map fun n => (n, k) with
    | some (n, k) => Decimal.trim n k
    | none => ⟨0, 0⟩

end Binary
end SceneEdit
