import SceneEdit.Number.Binary
import SceneEdit.Value.Type

/-!
# Values and objects

A value is what a slot holds. Objects are values too: an ordered table of named members, and for
materials a second table of shader channels that are no members. The tables are stated for any
type of contents, and a value that is an object closes the circle.
-/

namespace SceneEdit

/-- A managed asset. -/
structure Resource where
  path : String
  name : String
  typeName : TypeName
  deriving DecidableEq, Repr

/-- The asset at a path, named by its file name up to the first dot. -/
def Resource.ofPath (path : String) (typeName : TypeName) : Resource :=
  let file := (path.toList.reverse.takeWhile (· ≠ '/')).reverse
  ⟨path, String.ofList (file.takeWhile (· ≠ '.')), typeName⟩

/-- A numeric value of several components. -/
inductive Vec where
  | vec2 (x y : Single)
  | vec3 (x y z : Single)
  | vec4 (x y z w : Single)
  | quat (x y z w : Single)
  | color (r g b a : Single)
  deriving DecidableEq

namespace Vec

def kind : Vec → VectorKind
  | vec2 .. => .vec2
  | vec3 .. => .vec3
  | vec4 .. => .vec4
  | quat .. => .quat
  | color .. => .color

def components : Vec → List Single
  | vec2 x y => [x, y]
  | vec3 x y z => [x, y, z]
  | vec4 x y z w => [x, y, z, w]
  | quat x y z w => [x, y, z, w]
  | color r g b a => [r, g, b, a]

/-- The value of a kind with the given components, if their number is right. A color without its
last component has full alpha. -/
def ofComponents? : VectorKind → List Single → Option Vec
  | .vec2, [x, y] => some (vec2 x y)
  | .vec3, [x, y, z] => some (vec3 x y z)
  | .vec4, [x, y, z, w] => some (vec4 x y z w)
  | .quat, [x, y, z, w] => some (quat x y z w)
  | .color, [r, g, b] => some (color r g b (.ofInt .single 1))
  | .color, [r, g, b, a] => some (color r g b a)
  | _, _ => none

/-- All components zero; a rotation is the identity. -/
def zero : VectorKind → Vec
  | .vec2 => vec2 (.zero _ false) (.zero _ false)
  | .vec3 => vec3 (.zero _ false) (.zero _ false) (.zero _ false)
  | .vec4 => vec4 (.zero _ false) (.zero _ false) (.zero _ false) (.zero _ false)
  | .quat => quat (.zero _ false) (.zero _ false) (.zero _ false) (.ofInt .single 1)
  | .color => color (.zero _ false) (.zero _ false) (.zero _ false) (.zero _ false)

/-- Equality of kinds and, as numbers, of components. -/
def same (a b : Vec) : Bool :=
  a.kind = b.kind && (a.components.zip b.components).all fun (x, y) => x.same y

end Vec

/-- The visibility of a member, in the order of precedence. -/
inductive MemberKind where
  | property
  | field
  | hidden
  deriving DecidableEq, Repr

namespace MemberKind

def name : MemberKind → String
  | property => "Property"
  | field => "Field"
  | hidden => "HiddenField"

def rank : MemberKind → Nat
  | property => 0
  | field => 1
  | hidden => 2

end MemberKind

/-- A named slot of an object. -/
structure Slot (ν : Type) where
  name : String
  kind : MemberKind
  declared : ValueType
  writable : Bool
  value : ν

/-- A named shader parameter of a material. -/
structure Channel (ν : Type) where
  name : String
  declared : ValueType
  value : ν

/-- The shader of a material with its parameters. -/
structure Shader (ν : Type) where
  name : String
  channels : List (Channel ν)

/-- An object: its type, its members in order, and a shader if it is a material. -/
structure Table (ν : Type) where
  typeName : TypeName
  members : List (Slot ν)
  shader : Option (Shader ν)

/-- What a slot holds. -/
inductive Value where
  | null
  | bool (value : Bool)
  | int (value : Int)
  | float (value : Double)
  | string (text : String)
  | enum (label : String)
  | vector (components : Vec)
  | resource (handle : Resource)
  | list (items : List Value)
  | object (table : Table Value)

abbrev Member := Slot Value

abbrev Object := Table Value

namespace Shader

variable {ν : Type}

/-- The channel of exactly this name. -/
def channel? (shader : Shader ν) (name : String) : Option (Channel ν) :=
  shader.channels.find? fun channel => channel.name = name

/-- The place of the channel of exactly this name. -/
def channelIndex? (shader : Shader ν) (name : String) : Option Nat :=
  shader.channels.findIdx? fun channel => channel.name = name

end Shader

namespace Table

variable {ν : Type}

/-- An object without members. -/
def empty (typeName : TypeName) : Table ν := ⟨typeName, [], none⟩

/-- The member of exactly this name. -/
def member? (table : Table ν) (name : String) : Option (Slot ν) :=
  table.members.find? fun member => member.name = name

def isMaterial (table : Table ν) : Bool := table.shader.isSome

/-- The object with another value in the member at a place. -/
def setMember (table : Table ν) (index : Nat) (value : ν) : Table ν :=
  { table with members := table.members.modify index fun member => { member with value } }

/-- The object with another value in the shader channel at a place. -/
def setChannel (table : Table ν) (index : Nat) (value : ν) : Table ν :=
  { table with
    shader := table.shader.map fun shader =>
      { shader with
        channels := shader.channels.modify index fun channel => { channel with value } } }

end Table

namespace Value

instance : Inhabited Value := ⟨null⟩

def isNull : Value → Bool
  | null => true
  | _ => false

def object? : Value → Option Object
  | object table => some table
  | _ => none

def components? : Value → Option (List Single)
  | vector v => some v.components
  | _ => none

/-- A word for what a value is. -/
def shape : Value → String
  | null => "null"
  | bool _ => "bool"
  | int _ => "int"
  | float _ => "float"
  | string _ => "string"
  | enum _ => "enum"
  | vector v => v.kind.name
  | resource _ => "resource"
  | list _ => "list"
  | object _ => "object"

mutual

/-- Equality of values; numbers compare as numbers. -/
def same : Value → Value → Bool
  | null, null => true
  | bool a, bool b => a = b
  | int a, int b => a = b
  | float a, float b => a.same b
  | string a, string b => a = b
  | enum a, enum b => a = b
  | vector a, vector b => a.same b
  | resource a, resource b => a = b
  | list a, list b => sameItems a b
  | object a, object b => sameTable a b
  | _, _ => false

def sameItems : List Value → List Value → Bool
  | [], [] => true
  | a :: as, b :: bs => same a b && sameItems as bs
  | _, _ => false

def sameTable : Table Value → Table Value → Bool
  | ⟨name, members, none⟩, ⟨name', members', none⟩ => name = name' && sameMembers members members'
  | ⟨name, members, some ⟨shader, channels⟩⟩, ⟨name', members', some ⟨shader', channels'⟩⟩ =>
    name = name' && sameMembers members members' && shader = shader' &&
      sameChannels channels channels'
  | _, _ => false

def sameMembers : List (Slot Value) → List (Slot Value) → Bool
  | [], [] => true
  | ⟨name, kind, declared, writable, value⟩ :: rest,
    ⟨name', kind', declared', writable', value'⟩ :: rest' =>
    name = name' && kind = kind' && declared = declared' && writable = writable' &&
      same value value' && sameMembers rest rest'
  | _, _ => false

def sameChannels : List (Channel Value) → List (Channel Value) → Bool
  | [], [] => true
  | ⟨name, declared, value⟩ :: rest, ⟨name', declared', value'⟩ :: rest' =>
    name = name' && declared = declared' && same value value' && sameChannels rest rest'
  | _, _ => false

end

end Value

namespace ValueType

/-- The value of a type that is neither empty nor the catalog's to give. -/
def zero? : ValueType → Option Value
  | bool => some (.bool false)
  | int | long => some (.int 0)
  | float => some (.float (.zero .double false))
  | string => some (.string "")
  | enum type => type.variants.head?.map .enum
  | vector kind => some (.vector (Vec.zero kind))
  | list _ => some (.list [])
  | array element length => some (.list (List.replicate length (element.zero?.getD .null)))
  | resource _ | reference _ | nullable _ | foreign _ => some .null
  | struct _ => none

end ValueType
end SceneEdit
