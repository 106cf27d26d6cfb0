import SceneEdit.Value.Basic

/-!
# Scenes

A scene is a table of entities. The hierarchy is given by parent links, and siblings stand in the
order of the table. Entities carry capabilities, each with a type and a state; a scene may have a
transform, a capability that every entity gets when it is created and never loses.
-/

namespace SceneEdit

/-- The identity of an entity. -/
structure EntityId where
  number : Int
  deriving DecidableEq, Repr

/-- The identity of an attached capability. -/
structure CapabilityId where
  number : Int
  deriving DecidableEq, Repr

instance : ToString EntityId := ⟨fun id => toString id.number⟩

instance : ToString CapabilityId := ⟨fun id => toString id.number⟩

/-- A capability attached to an entity. -/
structure Capability where
  id : CapabilityId
  type : Descriptor
  state : Object

/-- A node of the hierarchy. -/
structure Entity where
  id : EntityId
  name : String
  tag : String
  layer : Nat
  /-- The entity's own flag; whether it is active also depends on its ancestors. -/
  active : Bool
  parent : Option EntityId
  /-- In the order of attachment. -/
  capabilities : List Capability

namespace Entity

/-- The first capability of a type. -/
def capability? (entity : Entity) (fullName : TypeName) : Option Capability :=
  entity.capabilities.find? fun capability => capability.type.fullName = fullName

/-- The capability with an identity. -/
def attached? (entity : Entity) (id : CapabilityId) : Option Capability :=
  entity.capabilities.find? fun capability => capability.id = id

def hasCapability (entity : Entity) (fullName : TypeName) : Bool :=
  (entity.capability? fullName).isSome

/-- The entity with another state in the capability with an identity. -/
def setState (entity : Entity) (id : CapabilityId) (state : Object) : Entity :=
  { entity with
    capabilities := entity.capabilities.map fun capability =>
      if capability.id = id then { capability with state } else capability }

end Entity

/-- Entities in table order, named layers, the transform, and the next identities. -/
structure Scene where
  entities : List Entity := []
  layers : List (String × Nat) :=
    [("Default", 0), ("TransparentFX", 1), ("Ignore Raycast", 2), ("Water", 4), ("UI", 5)]
  transform : Option (Descriptor × Object) := none
  nextEntity : Int := 1
  nextCapability : Int := 1

namespace Scene

def entity? (scene : Scene) (id : EntityId) : Option Entity :=
  scene.entities.find? fun entity => entity.id = id

def contains (scene : Scene) (id : EntityId) : Bool := (scene.entity? id).isSome

def parentOf? (scene : Scene) (id : EntityId) : Option EntityId :=
  (scene.entity? id).bind Entity.parent

/-- The index of a layer name. -/
def layer? (scene : Scene) (name : String) : Option Nat :=
  (scene.layers.find? fun layer => layer.1 = name).map Prod.snd

/-- Whether a type is the one every entity has a capability of. -/
def isTransform (scene : Scene) (type : Descriptor) : Bool :=
  match scene.transform with
  | some (transform, _) => transform.fullName = type.fullName
  | none => false

/-- The scene with the record of an entity changed. -/
def modify (scene : Scene) (id : EntityId) (change : Entity → Entity) : Scene :=
  { scene with
    entities := scene.entities.map fun entity =>
      if entity.id = id then change entity else entity }

end Scene
end SceneEdit
