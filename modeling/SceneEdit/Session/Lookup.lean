import SceneEdit.Session.Basic
import SceneEdit.Session.Reply

/-!
# Looking things up

Targets are found by a search and must be there; references name exactly one entity, active or
not. Summaries follow the host: an entity it keeps to itself has no summary, and ends the paths of
those below it.
-/

namespace SceneEdit

namespace Host

/-- The record of an entity, or that there is none. -/
def record (host : Host) (scene : Scene) (id : EntityId) : Except Report Entity :=
  match host.entity? scene id with
  | some entity => .ok entity
  | none => .error { error := .absent "entity" (toString id) }

/-- The first capability of a type that an entity has. -/
def capabilityOf (host : Host) (scene : Scene) (type : Descriptor) (id : EntityId) :
    Except Report Capability := do
  let entity ← host.record scene id
  match entity.capability? type.fullName with
  | some capability => .ok capability
  | none =>
    .error { error := .notFound s!"'{entity.name}' (id {id}) has no {type.short} capability" }

/-- The capabilities of a type that entities have; all of them must have one. -/
def capabilitiesOf (host : Host) (scene : Scene) (type : Descriptor) (ids : List EntityId) :
    Except Report (List (EntityId × CapabilityId)) :=
  ids.mapM fun id => return (id, (← host.capabilityOf scene type id).id)

/-- An entity and those above it as far as the host shows them, nearest first. -/
def lineage (host : Host) (scene : Scene) (id : EntityId) : List EntityId :=
  Scene.climb (host.parentOf? scene) scene.entities.length id

/-- Whether an entity is another one or below it, as far as the host shows. -/
def isWithin (host : Host) (scene : Scene) (candidate ancestor : EntityId) : Bool :=
  (host.lineage scene candidate).contains ancestor

/-- The names from the root down to an entity, between slashes. -/
def hierarchyPath (host : Host) (scene : Scene) (id : EntityId) : String :=
  let shown := (host.lineage scene id).filterMap (host.entity? scene)
  String.intercalate "/" (shown.map Entity.name).reverse

def summary (host : Host) (scene : Scene) (id : EntityId) : Except Report EntitySummary := do
  let entity ← host.record scene id
  return {
    id := entity.id
    name := entity.name
    path := host.hierarchyPath scene id
    tag := entity.tag
    layer := entity.layer
    active := entity.active
    parent := entity.parent
    capabilities := entity.capabilities.map fun capability => capability.type.short }

end Host

namespace Editor

/-- The entities that a query matches. -/
def search (editor : Editor) (query : Query) : Edit (List EntityId) := do
  let session ← get
  let (found, types) ← .ofAttempt (editor.host.find session.scene session.types query)
  modify fun session => { session with types }
  return found

/-- The entities that a query matches; there must be one. -/
def targets (editor : Editor) (query : Query) : Edit (List EntityId) := do
  let found ← editor.search query
  if found.isEmpty then fail (Host.noMatch query) else return found

/-- The first entity that a query matches. -/
def firstTarget (editor : Editor) (query : Query) : Edit EntityId := do
  let found ← editor.search query
  .ofOption (Host.noMatch query) found.head?

/-- The one entity that a reference names. -/
def reference (editor : Editor) (term : String) : Edit EntityId := do
  .ofExcept (editor.host.resolveUnique (← .scene) true term)

/-- The capability type that a name means. -/
def capabilityType (editor : Editor) (name : String) : Edit Descriptor := do
  let session ← get
  let (type, types) ← .ofAttempt (session.types.resolve editor.host.env.catalog .capability name)
  modify fun session => { session with types }
  return type

/-- The capability type that places entities. -/
def transformType (editor : Editor) : Edit Descriptor :=
  editor.capabilityType editor.config.transform.capability

/-- The layer that a text names or numbers. -/
def layer (_ : Editor) (text : String) : Edit Nat := do
  .ofExcept (Host.layer (← .scene) (Text.trim text))

/-- The first capability of a type that an entity has. -/
def capabilityOf (editor : Editor) (type : Descriptor) (id : EntityId) : Edit Capability := do
  .ofExcept (editor.host.capabilityOf (← .scene) type id)

/-- The capabilities of a type that entities have; all of them must have one. -/
def capabilitiesOf (editor : Editor) (type : Descriptor) (ids : List EntityId) :
    Edit (List (EntityId × CapabilityId)) := do
  .ofExcept (editor.host.capabilitiesOf (← .scene) type ids)

/-- The entities as they are now. -/
def summaries (editor : Editor) (ids : List EntityId) : Edit (List EntitySummary) := do
  let scene ← .scene
  .ofExcept (ids.mapM (editor.host.summary scene))

/-- A text that is given is not blank; it is trimmed. -/
def nonBlank (_ : Editor) (what : String) (text : Option String) : Edit (Option String) :=
  match text.map Text.trim with
  | some "" => fail (.missing what)
  | trimmed => return trimmed

end Editor
end SceneEdit
