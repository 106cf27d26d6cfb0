import SceneEdit.Number.Binary

/-!
# Arithmetic with one rounding

Sums, products and fused multiply-adds are exact in units of the smallest positive number and
rounded once. Sines and cosines are those of the wide format, rounded to the narrow one.
-/

namespace SceneEdit.Binary

variable {f : FloatFormat}

/-- The number nearest to a signed quotient of units; `zeroSign` is the sign of an exact zero. -/
def ofSignedUnits (f : FloatFormat) (zeroSign : Bool) (n : Int) (d : Nat) : Binary f :=
  if n = 0 then zero f zeroSign else ofUnits f (decide (n < 0)) n.natAbs d

def neg (x : Binary f) : Binary f := { x with negative := !x.negative }

/-- What an infinite or missing operand makes of a sum. -/
def specialSum (x y : Binary f) : Binary f :=
  if x.isNaN || y.isNaN then nan f
  else if x.isFinite then y
  else if y.isFinite then x
  else if x.negative = y.negative then x else nan f

def add (x y : Binary f) : Binary f :=
  if x.isFinite && y.isFinite then
    ofSignedUnits f (x.negative && y.negative) (x.signedUnits + y.signedUnits) 1
  else specialSum x y

/-- What an infinite or missing operand makes of a product. -/
def specialProduct (x y : Binary f) : Binary f :=
  if x.isNaN || y.isNaN || x.isZero || y.isZero then nan f
  else infinity f (x.negative != y.negative)

def mul (x y : Binary f) : Binary f :=
  if x.isFinite && y.isFinite then
    ofSignedUnits f (x.negative != y.negative) (x.signedUnits * y.signedUnits)
      (twoTo f.unitExponent)
  else specialProduct x y

/-- The product of the first two operands plus the third, rounded once. -/
def mulAdd (x y z : Binary f) : Binary f :=
  if x.isFinite && y.isFinite then
    if z.isFinite then
      ofSignedUnits f ((x.negative != y.negative) && z.negative)
        (x.signedUnits * y.signedUnits + z.signedUnits * twoTo f.unitExponent)
        (twoTo f.unitExponent)
    else z
  else specialSum (specialProduct x y) z

/-- The machine number with the same bits. -/
def toFloat (x : Double) : Float :=
  Float.ofBits (UInt64.ofNat ((if x.negative then twoTo 63 else 0) + x.word.val))

/-- The number with the same bits as a machine number. -/
def ofFloat (x : Float) : Double :=
  let bits := x.toBits.toNat
  ofWord .double (decide (twoTo 63 ≤ bits)) (bits % twoTo 63)

/-- Half a turn in radians, as a component. -/
def pi : Single := ofRatio .single false 13176795 (twoTo 22)

/-- Radians in one degree: the quotient of `pi` and 180, rounded. -/
def radiansPerDegree : Single := ofUnits .single false pi.units 180

def toRadians (degrees : Single) : Single := degrees.mul radiansPerDegree

def sin (x : Single) : Single := (ofFloat x.widen.toFloat.sin).narrow

def cos (x : Single) : Single := (ofFloat x.widen.toFloat.cos).narrow

end SceneEdit.Binary
