import SceneEdit.Session.Write
import SceneEdit.Value.Vector3

/-!
# Placing and moving entities

Positions, rotations and scales are members of the capability that the configuration names. A
relative move goes from a reference along an axis; unless it is in world space, the step is turned
by the rotation of the reference first. All that a move names is looked up before the first entity
is moved.
-/

namespace SceneEdit

/-- The unit step of a direction. -/
def Direction.axis : Direction → Vector3
  | left => .ofInts (-1) 0 0
  | right => .ofInts 1 0 0
  | up => .ofInts 0 1 0
  | down => .ofInts 0 (-1) 0
  | forward => .ofInts 0 0 1
  | back => .ofInts 0 0 (-1)

/-- The entries that write a placement. -/
def Placement.entries (placement : Placement) (binding : TransformBinding) : Entries :=
  Entries.ofPairs ([(binding.position, placement.position), (binding.rotation, placement.rotation),
    (binding.scale, placement.scale)].filterMap fun (member, token?) =>
      token?.map fun token => (member, token))

namespace Editor

/-- A member of the transform of an entity. -/
def readVector (editor : Editor) (type : Descriptor) (member : String) (id : EntityId) :
    Edit Vector3 := do
  let transform ← editor.capabilityOf type id
  let value ← .ofAttempt (editor.access.read transform.state member)
  .ofOption (.coercion member (ValueType.vector .vec3).display
    s!"{type.short} holds a {value.shape}") (Vector3.ofValue? value)

/-- A token as a vector. -/
def toVector (editor : Editor) (field : String) (token : Token) : Edit Vector3 := do
  let value ← .ofAttempt (Coercion.coerce editor.host.env field token (.vector .vec3) none)
  .ofOption (.coercion field (ValueType.vector .vec3).display
    s!"expected 3 components, got {value.shape}") (Vector3.ofValue? value)

/-- Writes the position of an entity. -/
def writePosition (editor : Editor) (type : Descriptor) (position : Vector3) (id : EntityId) :
    Edit CapabilityId := do
  let transform ← editor.capabilityOf type id
  editor.writeAll id type transform.id [(editor.config.transform.position, position.toToken)]
  return transform.id

/-- Moves an entity by a step. -/
def offsetPosition (editor : Editor) (type : Descriptor) (step : Token) (id : EntityId) :
    Edit Unit := do
  let step ← editor.toVector "offset" step
  let position ← editor.readVector type editor.config.transform.position id
  let _ ← editor.writePosition type (position.add step) id

/-- Where a relative move leads. -/
def destination (editor : Editor) (params : MoveRelative) (type : Descriptor)
    (reference : EntityId) : Edit Vector3 := do
  let binding := editor.config.transform
  let origin ← editor.readVector type binding.position reference
  let offset ← match params.offset with
    | some token => editor.toVector "offset" token
    | none => pure (.ofInts 0 0 0)
  let step := (params.direction.axis.scale params.distance).add offset
  if params.worldSpace then return origin.add step
  else
    let rotation ← editor.readVector type binding.rotation reference
    return origin.add (step.rotate rotation)

/-- What a relative move looks up: the entities to move, what they are moved along, the capability
type that places them, and where they go. -/
structure Course where
  targets : List EntityId
  reference : EntityId
  type : Descriptor
  destination : Vector3
  deriving DecidableEq

/-- Looks up and checks all that a relative move names. -/
def plot (editor : Editor) (params : MoveRelative) : Edit Course := do
  if !params.distance.isFinite then
    let distance := NumberLayout.message.write params.distance
    fail (.invalid "distance" s!"{distance} is not a finite number")
  let targets ← editor.targets params.target
  let reference ← editor.reference params.reference
  if targets.contains reference then
    fail (.invalid "reference" "an entity cannot be moved relative to itself")
  let type ← editor.transformType
  let destination ← editor.destination params type reference
  let _ ← editor.capabilitiesOf type targets
  return ⟨targets, reference, type, destination⟩

/-- Puts the targets to their destination. -/
def follow (editor : Editor) (direction : Direction) (course : Course) : Edit EntityReport := do
  course.targets.forM fun id => do
    let transform ← editor.writePosition course.type course.destination id
    .note (.wrote id transform)
    let reference := course.reference
    .tell .info .placement
      s!"Moved entity {id} {direction.name} of entity {reference} to {course.destination.text}"
  let applied := course.targets.map fun id => ⟨id, editor.config.transform.position⟩
  return { deed := .moved, entities := ← editor.summaries course.targets, batch := { applied } }

/-- Moves every matching entity to a place seen from a reference. -/
def moveRelative (editor : Editor) (params : MoveRelative) : Edit EntityReport :=
  editor.plot params >>= editor.follow params.direction

end Editor
end SceneEdit
