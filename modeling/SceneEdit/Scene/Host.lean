import SceneEdit.Log
import SceneEdit.Scene.Change
import SceneEdit.Types.Catalog

/-!
# Hosts

A host lends a session its scene, its types and its assets. It may refuse requests before they
reach the scene, and it may keep entities to itself, so that looking them up finds nothing. What
it carries out goes to the log.
-/

namespace SceneEdit

/-- What a session asks of a host. -/
inductive HostRequest where
  | createEntity
  | destroyEntity
  | duplicateEntity
  | setParent
  | addCapability
  | removeCapability
  /-- Looking at the record of an entity. -/
  | viewEntity
  /-- Changing the record of an entity. -/
  | editEntity
  deriving DecidableEq, Repr

namespace HostRequest

def name : HostRequest → String
  | createEntity => "create_entity"
  | destroyEntity => "destroy_entity"
  | duplicateEntity => "duplicate_entity"
  | setParent => "set_parent"
  | addCapability => "add_capability"
  | removeCapability => "remove_capability"
  | viewEntity => "view_entity"
  | editEntity => "edit_entity"

def all : List HostRequest :=
  [createEntity, destroyEntity, duplicateEntity, setParent, addCapability, removeCapability,
    viewEntity, editEntity]

end HostRequest

/-- A request that is refused, for all entities and types or for one. -/
structure Refusal where
  request : HostRequest
  entity : Option EntityId := none
  type : Option TypeName := none
  deriving DecidableEq, Repr

/-- Whether a refusal is about a request for an entity and a type. -/
def Refusal.covers (refusal : Refusal) (request : HostRequest) (entity : Option EntityId)
    (type : Option TypeName) : Bool :=
  refusal.request = request && (refusal.entity.isNone || refusal.entity = entity) &&
    (refusal.type.isNone || refusal.type = type)

/-- Types and assets, and the requests that are refused. -/
structure Host where
  env : Environment := {}
  refusals : List Refusal := []

namespace Host

/-- Whether a request is refused. -/
def refuses (host : Host) (request : HostRequest) (entity : Option EntityId)
    (type : Option TypeName) : Bool :=
  host.refusals.any fun refusal => refusal.covers request entity type

/-- A request that fails if it is refused. -/
def permit (host : Host) (request : HostRequest) (entity : Option EntityId)
    (type : Option TypeName) : Except SceneError Unit :=
  if host.refuses request entity type then .error (.vetoed request.name) else .ok ()

/-- The record of an entity. -/
def entity? (host : Host) (scene : Scene) (id : EntityId) : Option Entity :=
  if host.refuses .viewEntity (some id) none then none else scene.entity? id

/-- The parent of an entity. -/
def parentOf? (host : Host) (scene : Scene) (id : EntityId) : Option EntityId :=
  (host.entity? scene id).bind Entity.parent

/-- The record of an entity, to be changed. -/
def editableEntity? (host : Host) (scene : Scene) (id : EntityId) : Option Entity :=
  if host.refuses .editEntity (some id) none then none else scene.entity? id

def create (host : Host) (scene : Scene) (name : String) (parent : Option EntityId) :
    Traced SceneError (EntityId × Scene) := do
  .ofExcept (host.permit .createEntity parent none)
  let (id, changed) ← .ofExcept (scene.create name parent)
  .tell .debug .scene s!"created entity {id} '{name}'"
  return (id, changed)

def destroy (host : Host) (scene : Scene) (id : EntityId) : Traced SceneError Scene := do
  .ofExcept (host.permit .destroyEntity (some id) none)
  let changed ← .ofExcept (scene.destroy id)
  let below := (scene.subtree id).length - 1
  .tell .debug .scene s!"destroyed entity {id} and {below} descendant(s)"
  return changed

def duplicate (host : Host) (scene : Scene) (id : EntityId) (name : String) :
    Traced SceneError (EntityId × Scene) := do
  .ofExcept (host.permit .duplicateEntity (some id) none)
  let (copy, changed) ← .ofExcept (scene.duplicate id name)
  .tell .debug .scene s!"duplicated entity {id} as {copy} '{name}'"
  return (copy, changed)

def setParent (host : Host) (scene : Scene) (id : EntityId) (parent : Option EntityId) :
    Traced SceneError Scene := do
  .ofExcept (host.permit .setParent (some id) none)
  .ofExcept (scene.setParent id parent)

def attach (host : Host) (scene : Scene) (id : EntityId) (type : Descriptor) (state : Object) :
    Traced SceneError (CapabilityId × Scene) := do
  .ofExcept (host.permit .addCapability (some id) (some type.fullName))
  .ofExcept (scene.attach id type state)

def detach (host : Host) (scene : Scene) (id : EntityId) (capability : CapabilityId) :
    Traced SceneError Scene := do
  let attached := (scene.entity? id).bind fun entity => entity.attached? capability
  .ofExcept (host.permit .removeCapability (some id) (attached.map (·.type.fullName)))
  .ofExcept (scene.detach id capability)

end Host
end SceneEdit
