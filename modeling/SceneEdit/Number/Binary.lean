import SceneEdit.Number.Power

/-!
# Binary floating-point words

A number of a binary interchange format is its sign and the word below the sign bit. Words order
as absolute values do, the first word past the finite numbers is infinity, and the words above it
are not numbers. Every finite number is a whole multiple of the smallest positive one, so `units`
turns magnitudes into natural numbers and rounding into one division of natural numbers.
-/

namespace SceneEdit

/-- Widths of the exponent and fraction fields of an interchange format. -/
structure FloatFormat where
  exponentBits : Nat
  fractionBits : Nat
  deriving DecidableEq, Repr

namespace FloatFormat

/-- The 32-bit format of vector components. -/
def single : FloatFormat := ⟨8, 23⟩

/-- The 64-bit format of number tokens. -/
def double : FloatFormat := ⟨11, 52⟩

variable (f : FloatFormat)

/-- Bits below the sign. -/
def width : Nat := f.exponentBits + f.fractionBits

/-- The smallest positive number is two to the minus `unitExponent`. -/
def unitExponent : Nat := twoTo (f.exponentBits - 1) + f.fractionBits - 2

/-- The word of infinity: all exponent bits set, the fraction empty. -/
def infinityWord : Nat := (twoTo f.exponentBits - 1) * twoTo f.fractionBits

theorem infinityWord_lt : f.infinityWord < twoTo f.width := by
  unfold infinityWord width
  rw [twoTo_add]
  exact Nat.mul_lt_mul_of_pos_right (Nat.sub_lt (twoTo_pos _) Nat.one_pos) (twoTo_pos _)

end FloatFormat

/-- A sign and the word below it. -/
structure Binary (f : FloatFormat) where
  negative : Bool
  word : Fin (twoTo f.width)
  deriving DecidableEq

/-- A 32-bit number. -/
abbrev Single := Binary .single

/-- A 64-bit number. -/
abbrev Double := Binary .double

/-- The quotient `n / d` rounded to the nearest natural number, a half to the even neighbour. -/
def roundDiv (n d : Nat) : Nat :=
  let whole := n / d
  let twice := 2 * (n % d)
  if twice < d then whole
  else if d < twice then whole + 1
  else if whole % 2 = 0 then whole else whole + 1

namespace Binary

variable {f : FloatFormat}

/-- The number with a given sign and word; a word past the format's range is infinity. -/
def ofWord (f : FloatFormat) (negative : Bool) (word : Nat) : Binary f :=
  if h : word < twoTo f.width then ⟨negative, ⟨word, h⟩⟩
  else ⟨negative, ⟨f.infinityWord, f.infinityWord_lt⟩⟩

def zero (f : FloatFormat) (negative : Bool) : Binary f := ofWord f negative 0

def infinity (f : FloatFormat) (negative : Bool) : Binary f := ofWord f negative f.infinityWord

/-- A word that is no number. -/
def nan (f : FloatFormat) : Binary f :=
  ofWord f false (f.infinityWord + twoTo (f.fractionBits - 1))

/-- The largest finite number. -/
def largest (f : FloatFormat) : Binary f := ofWord f false (f.infinityWord - 1)

def isFinite (x : Binary f) : Bool := x.word.val < f.infinityWord

def isNaN (x : Binary f) : Bool := f.infinityWord < x.word.val

def isZero (x : Binary f) : Bool := x.word.val = 0

/-- The exponent field. -/
def field (x : Binary f) : Nat := x.word.val / twoTo f.fractionBits

/-- The distance from a finite number to the next larger magnitude, in units. -/
def step (x : Binary f) : Nat := twoTo (x.field - 1)

/-- The magnitude of a finite number, in units of the smallest positive number. -/
def units (x : Binary f) : Nat :=
  if x.field = 0 then x.word.val
  else (twoTo f.fractionBits + x.word.val % twoTo f.fractionBits) * x.step

/-- The signed value of a finite number, in units of the smallest positive number. -/
def signedUnits (x : Binary f) : Int := if x.negative then -x.units else x.units

/-- The number nearest to `n / d` units, a tie to the even word. A quotient that rounds past the
finite numbers is infinity. The word of a rounded significand `m` shifted by `s` places is
`s` exponent steps above `m`, and a carry out of the significand lands on the next exponent. -/
def ofUnits (f : FloatFormat) (negative : Bool) (n d : Nat) : Binary f :=
  let shift := (n / d).log2 - f.fractionBits
  let word := shift * twoTo f.fractionBits + roundDiv n (d * twoTo shift)
  ofWord f negative (min word f.infinityWord)

/-- The number nearest to the fraction `n / d`. -/
def ofRatio (f : FloatFormat) (negative : Bool) (n d : Nat) : Binary f :=
  ofUnits f negative (n * twoTo f.unitExponent) d

/-- The number nearest to a whole number. -/
def ofInt (f : FloatFormat) (i : Int) : Binary f := ofRatio f (decide (i < 0)) i.natAbs 1

/-- Decimal places beyond which both formats have left the finite numbers, or reached zero. -/
def decimalReach : Int := 400

/-- The number nearest to `digits · 10 ^ exponent`. Past `decimalReach` no power is computed: the
value is certainly too large for the format, or certainly rounds to zero. -/
def ofDecimal (f : FloatFormat) (negative : Bool) (digits : Nat) (exponent : Int) : Binary f :=
  let places : Int := (Nat.toDigits 10 digits).length
  if digits = 0 then zero f negative
  else if decimalReach < places + exponent then infinity f negative
  else if places + exponent < -decimalReach then zero f negative
  else if 0 ≤ exponent then ofRatio f negative (digits * tenTo exponent.toNat) 1
  else ofRatio f negative digits (tenTo (-exponent).toNat)

/-- The nearest number of another format. Infinities and words that are no number stay such. -/
def convert {g : FloatFormat} (f : FloatFormat) (x : Binary g) : Binary f :=
  if x.isNaN then nan f
  else if !x.isFinite then infinity f x.negative
  else ofUnits f x.negative (x.units * twoTo f.unitExponent) (twoTo g.unitExponent)

/-- Equality of numbers: both zeros are equal, and what is no number equals nothing. -/
def same (x y : Binary f) : Bool :=
  !x.isNaN && !y.isNaN && (x == y || (x.isZero && y.isZero))

/-- The whole number that a finite number is, if it is one. -/
def toInt? (x : Binary f) : Option Int :=
  if x.isFinite && x.units % twoTo f.unitExponent = 0 then
    let magnitude : Int := x.units / twoTo f.unitExponent
    some (if x.negative then -magnitude else magnitude)
  else none

/-- A number of the wide format as a vector component. -/
def narrow (x : Double) : Single := x.convert .single

/-- A vector component as a number of the wide format; always exact. -/
def widen (x : Single) : Double := x.convert .double

/-- Whether a number is finite and no larger in magnitude than the largest component. Words order
as magnitudes do, with infinity and what is no number on top, so one comparison decides. -/
def fitsSingle (x : Double) : Bool := x.word.val ≤ (widen (largest .single)).word.val

end Binary
end SceneEdit
