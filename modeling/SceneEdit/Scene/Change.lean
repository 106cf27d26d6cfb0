import SceneEdit.Scene.Tree

/-!
# Changing a scene

The structural changes: creating, destroying and copying entities, moving them in the hierarchy,
and attaching and detaching capabilities. A change that cannot be carried out is refused with its
cause and leaves the scene as it was.
-/

namespace SceneEdit

/-- Why a scene refuses a change. -/
inductive SceneError where
  | noEntity (id : EntityId)
  | wouldCycle (parent id : EntityId)
  | alreadyAttached (id : EntityId) (type : String)
  | noCapability (id : EntityId) (capability : CapabilityId)
  | permanent (id : EntityId) (type : String)
  /-- Something else than the scene refuses the named request. -/
  | vetoed (request : String)
  deriving DecidableEq, Repr

def SceneError.message : SceneError → String
  | noEntity id => s!"entity {id} does not exist"
  | wouldCycle parent id => s!"entity {parent} is {id} or one of its descendants"
  | alreadyAttached id type => s!"entity {id} already has a {type}"
  | noCapability id capability => s!"entity {id} has no capability {capability}"
  | permanent id type => s!"the {type} of entity {id} cannot be removed"
  | vetoed request => s!"refused {request}"

namespace Scene

/-- The tag of an entity that is given none. -/
def defaultTag : String := "Untagged"

/-- The entity with an identity, or the refusal that names it. -/
def require (scene : Scene) (id : EntityId) : Except SceneError Entity :=
  match scene.entity? id with
  | some entity => .ok entity
  | none => .error (.noEntity id)

/-- A parent must exist; the root needs no check. -/
def requireParent (scene : Scene) : Option EntityId → Except SceneError Unit
  | some parent => (scene.require parent).map fun _ => ()
  | none => .ok ()

/-- Adds an entity at the end of the table, with the scene's transform if there is one. -/
def create (scene : Scene) (name : String) (parent : Option EntityId) :
    Except SceneError (EntityId × Scene) := do
  scene.requireParent parent
  let id : EntityId := ⟨scene.nextEntity⟩
  let capabilities := match scene.transform with
    | some (type, state) => [{ id := ⟨scene.nextCapability⟩, type, state : Capability }]
    | none => []
  let entity : Entity :=
    { id, name, tag := defaultTag, layer := 0, active := true, parent, capabilities }
  return (id, { scene with
    entities := scene.entities ++ [entity]
    nextEntity := scene.nextEntity + 1
    nextCapability := scene.nextCapability + capabilities.length })

/-- Removes an entity and all its descendants. -/
def destroy (scene : Scene) (id : EntityId) : Except SceneError Scene := do
  let _ ← scene.require id
  let doomed := scene.subtree id
  return { scene with entities := scene.entities.filter fun entity => !doomed.contains entity.id }

/-- Capabilities with new identities, counted from `next`. -/
def renumber (next : Int) (capabilities : List Capability) : List Capability :=
  capabilities.zipIdx.map fun (capability, i) => { capability with id := ⟨next + i⟩ }

/-- The entity that stands for another one in a copy of `sources` counted from `next`. -/
def copyOf? (sources : List EntityId) (next : Int) (id : EntityId) : Option EntityId :=
  (sources.idxOf? id).map fun i => ⟨next + i⟩

/-- Copies of entities, their capabilities counted from `nextCapability`; `rename` gives the
identity, name and parent of a copy. -/
def copies (rename : Entity → Entity) : (nextCapability : Int) → List Entity → List Entity
  | _, [] => []
  | next, entity :: rest =>
    { rename entity with capabilities := renumber next entity.capabilities } ::
      copies rename (next + entity.capabilities.length) rest

/-- Copies an entity and its descendants; the copy gets the name and the same parent. -/
def duplicate (scene : Scene) (id : EntityId) (name : String) :
    Except SceneError (EntityId × Scene) := do
  let _ ← scene.require id
  let ids := scene.subtree id
  let sources := ids.filterMap scene.entity?
  let copyId := copyOf? ids scene.nextEntity
  let rename := fun entity : Entity =>
    { entity with
      id := (copyId entity.id).getD entity.id
      name := if entity.id = id then name else entity.name
      parent := if entity.id = id then entity.parent else entity.parent.bind copyId }
  let made := copies rename scene.nextCapability sources
  return (⟨scene.nextEntity⟩, { scene with
    entities := scene.entities ++ made
    nextEntity := scene.nextEntity + ids.length
    nextCapability := sources.foldl (fun next entity => next + entity.capabilities.length)
      scene.nextCapability })

/-- Moves an entity, with its descendants, under another parent; it becomes the last sibling. -/
def setParent (scene : Scene) (id : EntityId) (parent : Option EntityId) :
    Except SceneError Scene := do
  let entity ← scene.require id
  scene.requireParent parent
  if let some newParent := parent then
    if scene.isWithin newParent id then throw (.wouldCycle newParent id)
  return { scene with
    entities := (scene.entities.filter fun other => other.id ≠ id) ++ [{ entity with parent }] }

/-- Attaches a capability after those the entity has. -/
def attach (scene : Scene) (id : EntityId) (type : Descriptor) (state : Object) :
    Except SceneError (CapabilityId × Scene) := do
  let _ ← scene.require id
  if scene.isTransform type then throw (.alreadyAttached id type.short)
  let capability : CapabilityId := ⟨scene.nextCapability⟩
  let changed := scene.modify id fun entity =>
    { entity with capabilities := entity.capabilities ++ [⟨capability, type, state⟩] }
  return (capability, { changed with nextCapability := scene.nextCapability + 1 })

/-- Detaches a capability. -/
def detach (scene : Scene) (id : EntityId) (capability : CapabilityId) :
    Except SceneError Scene := do
  let entity ← scene.require id
  match entity.attached? capability with
  | none => throw (.noCapability id capability)
  | some attached =>
    if scene.isTransform attached.type then throw (.permanent id attached.type.short)
    return scene.modify id fun entity =>
      { entity with capabilities := entity.capabilities.filter fun c => c.id ≠ capability }

end Scene
end SceneEdit
