import SceneEdit.Session.Attach
import SceneEdit.Session.Motion

/-!
# Creating, copying and destroying entities

All that a creation names is looked up first. The new entity is built up after the host has created
it: its record, its placement, its capabilities. If any of that fails the entity is destroyed again,
and the same goes for a copy.
-/

namespace SceneEdit

/-- New values for the fields of a record. -/
structure RecordChange where
  name : Option String := none
  tag : Option String := none
  layer : Option Nat := none
  active : Option Bool := none
  deriving DecidableEq, Repr

namespace RecordChange

def isEmpty (change : RecordChange) : Bool :=
  change.name.isNone && change.tag.isNone && change.layer.isNone && change.active.isNone

def apply (change : RecordChange) (entity : Entity) : Entity :=
  { entity with
    name := change.name.getD entity.name
    tag := change.tag.getD entity.tag
    layer := change.layer.getD entity.layer
    active := change.active.getD entity.active }

end RecordChange

/-- The parent that a change leads to: none if it stays, else the entity or the root. -/
abbrev NewParent := Option (Option EntityId)

/-- The properties to write into capabilities, by type. -/
abbrev Writes := List (Descriptor × Entries)

namespace Editor

/-- Destroys an entity that could not be completed; a refusal only goes to the log. -/
def discard (editor : Editor) (id : EntityId) : Edit Unit := do
  if let .error refusal ← Edit.request (editor.destroyRequest id) then
    .tell .warn .lifecycle
      s!"Could not discard partially built entity {id}: {refusal.message}"

/-- The capability types that specifications name, with the properties to write. -/
def specTypes (editor : Editor) (specs : List CapabilitySpec) : Edit Writes :=
  specs.mapM fun spec => return (← editor.capabilityType spec.typeName, spec.properties)

/-- The transform type, if there is something to place. -/
def placementType (editor : Editor) (placement : Placement) : Edit (Option Descriptor) := do
  if placement.isEmpty then return none else return some (← editor.transformType)

/-- The parent that a change names. -/
def newParent (editor : Editor) : ParentChange → Edit NewParent
  | .keep => return none
  | .toRoot => return some none
  | .under term => return some (some (← editor.reference term))

/-- Changes the record of an entity. -/
def changeRecord (editor : Editor) (id : EntityId) (change : RecordChange) : Edit Unit := do
  let _ ← Edit.ofOption (.absent "entity" (toString id))
    (editor.host.editableEntity? (← .scene) id)
  Edit.modifyEntity id change.apply

/-- Writes a placement and returns the members that were written. -/
def place (editor : Editor) (id : EntityId) (placement : Placement) :
    Option Descriptor → Edit (List String)
  | none => return []
  | some type => do
    let transform ← editor.capabilityOf type id
    let entries := placement.entries editor.config.transform
    editor.writeAll id type transform.id entries
    return entries.keys

/-- Gives a new entity a capability; one that it was created with is written into. -/
def equip (editor : Editor) (id : EntityId) (type : Descriptor) (properties : Entries) :
    Edit (List String) := do
  let existing? := (editor.host.entity? (← .scene) id).bind fun entity =>
    entity.capability? type.fullName
  match existing? with
  | some existing => editor.writeAll id type existing.id properties
  | none => let _ ← editor.attach id type properties
  return properties.keys.map fun field => s!"{type.short}.{field}"

/-- Completes a new entity and returns the fields that were written. -/
def populate (editor : Editor) (id : EntityId) (record : RecordChange) (placement : Placement)
    (transform : Option Descriptor) (capabilities : Writes) : Edit (List String) := do
  editor.changeRecord id record
  let placed ← editor.place id placement transform
  let equipped ← capabilities.mapM fun (type, properties) => editor.equip id type properties
  return placed ++ equipped.flatten

/-- What a creation looks up: the name, the parent and the layer of the entity, the capabilities
that are wanted, and the transform type if there is something to place. -/
structure Draft where
  name : String
  parent : Option EntityId
  layer : Option Nat
  wants : Writes
  transform : Option Descriptor

/-- Looks up all that a creation names. -/
def draft (editor : Editor) (params : Create) : Edit Draft := do
  let name := Text.trim params.name
  if name = "" then fail (.missing "name")
  let parent ← params.parent.mapM editor.reference
  let layer ← params.layer.mapM editor.layer
  let wants ← editor.specTypes params.capabilities
  let transform ← editor.placementType params.placement
  return ⟨name, parent, layer, wants, transform⟩

/-- The record of the entity as far as the request gives it. -/
def Draft.record (params : Create) (draft : Draft) : RecordChange :=
  { tag := params.tag, layer := draft.layer, active := params.active }

/-- Creates and completes the entity, or destroys it again. -/
def build (editor : Editor) (params : Create) (draft : Draft) : Edit EntityReport := do
  let id ← .require "create entity" (editor.createRequest draft.name draft.parent)
  let written ←
    (editor.populate id (draft.record params) params.placement draft.transform draft.wants).orUndo
      (editor.discard id) fun report => report.attach s!"Entity '{draft.name}' was not created"
  .note (.created id)
  .tell .info .lifecycle s!"Created '{draft.name}' (id {id})"
  let applied := written.map fun field => ⟨id, field⟩
  return { deed := .created, entities := ← editor.summaries [id], batch := { applied } }

/-- Creates an entity, or nothing. -/
def create (editor : Editor) (params : Create) : Edit EntityReport :=
  editor.draft params >>= editor.build params

/-- Destroys entities with all below them; one that is gone already is passed over. -/
def destroyEach (editor : Editor) : List EntityId → Edit (List EntityId)
  | [] => return []
  | id :: rest => do
    if (editor.host.entity? (← .scene) id).isNone then editor.destroyEach rest
    else
      .require "destroy entity" (editor.destroyRequest id)
      .note (.destroyed id)
      .tell .info .lifecycle s!"Destroyed entity {id}"
      return id :: (← editor.destroyEach rest)

/-- Destroys every matching entity. -/
def delete (editor : Editor) (query : Query) : Edit (List EntityId) := do
  editor.destroyEach (← editor.targets query)

/-- Moves a copy in the hierarchy and in space. -/
def placeCopy (editor : Editor) (copy : EntityId) (parent : NewParent)
    (transform : Option Descriptor) (params : Duplicate) : Edit Unit := do
  if let some parent := parent then
    .require "re-parent" (editor.parentRequest copy parent)
  if let some type := transform then
    if let some position := params.position then
      let attached ← editor.capabilityOf type copy
      editor.writeAll copy type attached.id [(editor.config.transform.position, position)]
    if let some offset := params.offset then editor.offsetPosition type offset copy

/-- The name of a copy: the one given, else the old one with a suffix. -/
def copyName (editor : Editor) (source : EntityId) (given : Option String) : Edit String := do
  match ← editor.nonBlank "new_name" given with
  | some name => return name
  | none =>
    let entity ← .ofExcept (editor.host.record (← .scene) source)
    return entity.name ++ editor.config.duplicateSuffix

/-- Copies the first matching entity with all below it, or nothing. -/
def duplicate (editor : Editor) (params : Duplicate) : Edit EntityReport := do
  let source ← editor.firstTarget params.target
  let parent ← editor.newParent params.parent
  let transform ← if params.position.isSome || params.offset.isSome then
      some <$> editor.transformType
    else pure none
  let name ← editor.copyName source params.newName
  let copy ← .require "duplicate entity" (editor.duplicateRequest source name)
  (editor.placeCopy copy parent transform params).orUndo (editor.discard copy)
    fun report => report.attach s!"Copy '{name}' was discarded"
  .note (.created copy)
  .tell .info .lifecycle s!"Duplicated entity {source} as '{name}' (id {copy})"
  return { deed := .duplicated, entities := ← editor.summaries [copy] }

end Editor
end SceneEdit
