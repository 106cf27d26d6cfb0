import SceneEdit.Types.Name

/-!
# Declared types

Every slot is declared with a type. The type decides how a token converts and whether the slot may
be empty.
-/

namespace SceneEdit

/-- Numeric values of a fixed number of components. -/
inductive VectorKind where
  | vec2
  | vec3
  | vec4
  | quat
  | color
  deriving DecidableEq, Repr

namespace VectorKind

def name : VectorKind → String
  | vec2 => "Vec2"
  | vec3 => "Vec3"
  | vec4 => "Vec4"
  | quat => "Quat"
  | color => "Color"

def componentNames : VectorKind → List String
  | vec2 => ["x", "y"]
  | vec3 => ["x", "y", "z"]
  | vec4 | quat => ["x", "y", "z", "w"]
  | color => ["r", "g", "b", "a"]

def arity (kind : VectorKind) : Nat := kind.componentNames.length

end VectorKind

/-- An enumeration and its labels in order. -/
structure EnumType where
  name : TypeName
  variants : List String
  deriving DecidableEq, Repr

/-- The declared type of a slot. -/
inductive ValueType where
  | bool
  | int
  | long
  | float
  | string
  | enum (type : EnumType)
  | vector (kind : VectorKind)
  /-- A handle of an asset of the given type. -/
  | resource (name : TypeName)
  | list (element : ValueType)
  | array (element : ValueType) (length : Nat)
  /-- A nested object, never empty. -/
  | struct (name : TypeName)
  /-- A nested object that may be empty. -/
  | reference (name : TypeName)
  | nullable (inner : ValueType)
  /-- A type without any conversion. -/
  | foreign (name : TypeName)
  deriving DecidableEq, Repr

namespace ValueType

/-- How a type is written in messages. -/
def display : ValueType → String
  | bool => "Bool"
  | int => "Int"
  | long => "Long"
  | float => "Float"
  | string => "String"
  | enum type => s!"enum {type.name.text}"
  | vector kind => kind.name
  | resource name => s!"resource {name.text}"
  | list element => s!"List<{element.display}>"
  | array element length => s!"[{element.display}; {length}]"
  | struct name => name.short
  | reference name => name.short
  | nullable inner => s!"{inner.display}?"
  | foreign name => name.short

/-- Whether a slot of this type may be empty. -/
def acceptsAbsence : ValueType → Bool
  | resource _ | reference _ | nullable _ | foreign _ => true
  | _ => false

/-- The type of the elements of a collection. -/
def element? : ValueType → Option ValueType
  | list element => some element
  | array element _ => some element
  | nullable inner => inner.element?
  | _ => none

/-- How deeply a type is wrapped. -/
def depth : ValueType → Nat
  | list element => element.depth + 1
  | array element _ => element.depth + 1
  | nullable inner => inner.depth + 1
  | _ => 0

end ValueType
end SceneEdit
