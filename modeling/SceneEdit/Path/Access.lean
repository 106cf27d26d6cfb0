import SceneEdit.Coercion.Basic
import SceneEdit.Path.Basic

/-!
# Reading and writing along a path

Every segment but the last must lead to an object. The last one names the slot: a member, an item
of a list in a member, or, on a material, a shader channel if the name starts with the sigil.
Reading returns what the slot holds; writing converts a token against the declared type of the
slot and returns the object with the slot changed and all else as it was.
-/

namespace SceneEdit

/-- What reading and writing along paths depends on. -/
structure Access where
  env : Environment := {}
  /-- Names with this in front are shader channels of a material; empty, none are. -/
  sigil : String := "_"

namespace Access

/-- A path that leads nowhere, and why. -/
def pathError (path reason : String) : Report := { error := .path path reason }

/-- The place of the member a segment names. -/
def findMember (path : String) (object : Object) (name : String) : Attempt Nat :=
  (object.find name).mapError fun failure =>
    pathError path s!"{failure.reason name} on {object.typeName.text}"

/-- The item at a place of a list. -/
def item (path name : String) (value : Value) (index : Nat) : Except Report Value :=
  match value with
  | .list items =>
    match items[index]? with
    | some item => .ok item
    | none => .error (pathError path
        s!"index {index} is out of bounds for '{name}' (length {items.length})")
  | .null => .error (pathError path s!"'{name}' is null")
  | other => .error (pathError path s!"'{name}' is a {other.shape}, not a list")

/-- The item at the places of a segment, one inside the other. -/
def items (path name : String) : Value → List Nat → Except Report Value
  | value, [] => .ok value
  | value, index :: rest => do items path name (← item path name value index) rest

/-- A value with another one at the given places. -/
def replace : Value → List Nat → Value → Value
  | _, [], new => new
  | .list items, index :: rest, new =>
    .list (items.modify index fun old => replace old rest new)
  | value, _ :: _, _ => value

/-- The object that a segment leads to. -/
def nested (path : String) (segment : Segment) (value : Value) : Except Report Object := do
  match ← items path segment.name value segment.indices with
  | .object table => .ok table
  | .null => .error (pathError path s!"'{segment.text}' is null")
  | other =>
    .error (pathError path s!"'{segment.text}' is a {other.shape}, not an object")

/-- The member a segment names, with its place. -/
def memberAt (path : String) (object : Object) (name : String) : Attempt (Nat × Member) := do
  let index ← findMember path object name
  match object.members[index]? with
  | some member => return (index, member)
  | none => throw (pathError path "member table changed")

/-- Whether a segment names a shader channel of an object. -/
def isChannel (access : Access) (object : Object) (segment : Segment) : Bool :=
  segment.indices.isEmpty && object.isMaterial && access.sigil ≠ "" &&
    access.sigil.toList.isPrefixOf segment.name.toList

/-- The shader has no channel of a name. -/
def channelError (path : String) (object : Object) (name : String) : Report :=
  let shader := (object.shader.map Shader.name).getD ""
  let names := (object.shader.map fun shader => shader.channels.map Channel.name).getD []
  pathError path (Suggestion.withSuggestions s!"shader '{shader}' has no property '{name}'"
    (Suggestion.closest name names))

/-- The shader channel of exactly a name, with its place. -/
def channelAt (path : String) (object : Object) (name : String) :
    Except Report (Nat × Channel Value) :=
  let found := do
    let shader ← object.shader
    let index ← shader.channelIndex? name
    let channel ← shader.channels[index]?
    return (index, channel)
  match found with
  | some entry => .ok entry
  | none => .error (channelError path object name)

/-- What the slot named by the last segment holds. -/
def readSlot (access : Access) (path : String) (object : Object) (segment : Segment) :
    Attempt Value :=
  if access.isChannel object segment then
    .ofExcept ((channelAt path object segment.name).map fun entry => entry.2.value)
  else do
    let (_, member) ← memberAt path object segment.name
    .ofExcept (items path segment.name member.value segment.indices)

/-- What the slot at the end of some segments holds. -/
def readSegments (access : Access) (path : String) (last : Segment) :
    Object → List Segment → Attempt Value
  | object, [] => access.readSlot path object last
  | object, segment :: rest => do
    let (_, member) ← memberAt path object segment.name
    let inner ← .ofExcept (nested path segment member.value)
    access.readSegments path last inner rest

/-- What an object holds at a path. -/
def read (access : Access) (object : Object) (path : String) : Attempt Value := do
  let parsed ← .ofExcept (Path.parse path)
  access.readSegments path parsed.last object parsed.parents

/-- The declared type and the value of the item at some places; the type must be that of a
collection at every step. -/
def element (path : String) (segment : Segment) :
    ValueType → Value → List Nat → Except Report (ValueType × Value)
  | declared, value, [] => .ok (declared, value)
  | declared, value, index :: rest =>
    match declared.element? with
    | none => .error (pathError path
        s!"'{segment.text}' indexes {declared.display}, which is not a list")
    | some inner => do element path segment inner (← item path segment.name value index) rest

/-- Converts a token for a slot and refuses absence where the declared type does. -/
def convert (access : Access) (path : String) (token : Token) (declared : ValueType)
    (current : Value) : Attempt Value := do
  let value ← Coercion.coerce access.env path token declared (some current)
  if value.isNull && !declared.acceptsAbsence then
    throw (pathError path s!"{declared.display} does not accept null")
  return value

/-- The object with a shader channel written. -/
def writeChannel (access : Access) (path : String) (token : Token) (object : Object)
    (name : String) : Attempt Object := do
  .tell .debug .paths s!"'{path}' routed to shader channel '{name}'"
  let (index, channel) ← .ofExcept (channelAt path object name)
  let value ←
    Coercion.coerce access.env path token channel.declared (some channel.value)
  return object.setChannel index value

/-- The object with a member, or an item in it, written. -/
def writeMember (access : Access) (path : String) (token : Token) (object : Object)
    (segment : Segment) : Attempt Object := do
  let (index, member) ← memberAt path object segment.name
  if !member.writable then
    throw (pathError path
      s!"member '{member.name}' on {object.typeName.text} is read-only")
  let (declared, current) ←
    .ofExcept (element path segment member.declared member.value segment.indices)
  let value ← access.convert path token declared current
  return object.setMember index (replace member.value segment.indices value)

/-- The object with the slot named by the last segment written. -/
def writeSlot (access : Access) (path : String) (token : Token) (object : Object)
    (segment : Segment) : Attempt Object :=
  if access.isChannel object segment then access.writeChannel path token object segment.name
  else access.writeMember path token object segment

/-- The object with the slot at the end of some segments written. -/
def writeSegments (access : Access) (path : String) (token : Token) (last : Segment) :
    Object → List Segment → Attempt Object
  | object, [] => access.writeSlot path token object last
  | object, segment :: rest => do
    let (index, member) ← memberAt path object segment.name
    let inner ← .ofExcept (nested path segment member.value)
    let changed ← access.writeSegments path token last inner rest
    return object.setMember index (replace member.value segment.indices (.object changed))

/-- The object with a token written at a path. -/
def write (access : Access) (object : Object) (path : String) (token : Token) :
    Attempt Object := do
  let parsed ← .ofExcept (Path.parse path)
  access.writeSegments path token parsed.last object parsed.parents

end Access
end SceneEdit
