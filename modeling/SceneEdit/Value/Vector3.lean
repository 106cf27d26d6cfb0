import SceneEdit.Number.Arithmetic
import SceneEdit.Token.Basic
import SceneEdit.Value.Basic

/-!
# Positions and steps

Vectors of three components, with the arithmetic of relative moves. Every operation on components
rounds; products that are added are rounded once together with the sum.
-/

namespace SceneEdit

/-- A position, a step or a triple of angles. -/
structure Vector3 where
  x : Single
  y : Single
  z : Single
  deriving DecidableEq

namespace Vector3

def ofInts (x y z : Int) : Vector3 := ⟨.ofInt .single x, .ofInt .single y, .ofInt .single z⟩

/-- The components of a three-component value. -/
def ofValue? : Value → Option Vector3
  | .vector (.vec3 x y z) => some ⟨x, y, z⟩
  | _ => none

def components (v : Vector3) : List Single := [v.x, v.y, v.z]

def toToken (v : Vector3) : Token := .arr (v.components.map Token.component)

/-- How log lines write a vector. -/
def text (v : Vector3) : String :=
  let listed := String.intercalate ", " (v.components.map NumberLayout.component.write)
  s!"[{listed}]"

def add (v w : Vector3) : Vector3 := ⟨v.x.add w.x, v.y.add w.y, v.z.add w.z⟩

def scale (v : Vector3) (factor : Single) : Vector3 :=
  ⟨v.x.mul factor, v.y.mul factor, v.z.mul factor⟩

/-- The coordinates of a point of a plane turned by an angle: the first along the cosine minus the
second along the sine, and the first along the sine plus the second along the cosine. -/
def turn (angle first second : Single) : Single × Single :=
  let sine := angle.sin
  let cosine := angle.cos
  (first.mulAdd cosine (second.neg.mul sine), first.mulAdd sine (second.mul cosine))

/-- A vector turned by angles in degrees: about the third axis, then the first, then the second. -/
def rotate (v degrees : Vector3) : Vector3 :=
  let (x, y) := turn degrees.z.toRadians v.x v.y
  let (y, z) := turn degrees.x.toRadians y v.z
  let angle := degrees.y.toRadians
  let sine := angle.sin
  let cosine := angle.cos
  ⟨x.mulAdd cosine (z.mul sine), y, z.mulAdd cosine (x.neg.mul sine)⟩

end Vector3
end SceneEdit
