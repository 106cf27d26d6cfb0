import SceneEdit.Session.Write

/-!
# Attaching and detaching capabilities

A capability starts from the default state of its type. Attaching is all or nothing: if a property
cannot be written the capability is detached again, and so are those attached before it in the same
request. Detaching cannot be undone.
-/

namespace SceneEdit.Editor

/-- Detaches capabilities that were attached in vain; a refusal only goes to the log. -/
def detachAll (editor : Editor) : List (EntityId × CapabilityId) → Edit Unit
  | [] => return ()
  | (entity, capability) :: rest => do
    if let .error refusal ← Edit.request (editor.detachRequest entity capability) then
      .tell .warn .capabilities
        s!"Rollback of capability {capability} on entity {entity} failed: {refusal.message}"
    editor.detachAll rest

/-- Attaches a capability in its default state and writes properties into it. -/
def attach (editor : Editor) (entity : EntityId) (type : Descriptor) (properties : Entries) :
    Edit CapabilityId := do
  let state ← .ofOption
    (.notFound s!"no default state for capability type '{type.fullName.text}'")
    (editor.host.env.catalog.instantiate? type.fullName)
  let capability ← .require "add capability" (editor.attachRequest entity type state)
  if !properties.isEmpty then
    (editor.writeAll entity type capability properties).orUndo
      (editor.detachAll [(entity, capability)])
      fun report => report.attach s!"{type.short} was not added to entity {entity}"
  return capability

/-- Attaches capabilities one after the other; `attached` are those that a failure takes back
together with the new ones. -/
def attachAll (editor : Editor) : (attached : List (EntityId × CapabilityId)) →
    List (EntityId × Descriptor × Entries) → Edit (List (EntityId × CapabilityId))
  | attached, [] => return attached
  | attached, (entity, type, properties) :: rest => do
    let capability ←
      (editor.attach entity type properties).orUndo (editor.detachAll attached) id
    editor.attachAll (attached ++ [(entity, capability)]) rest

/-- Attaches a capability to every matching entity, or to none. -/
def addCapability (editor : Editor) (params : AddCapability) : Edit EntityReport := do
  let targets ← editor.targets params.target
  let type ← editor.capabilityType params.capability
  let attached ← editor.attachAll [] (targets.map fun id => (id, type, params.properties))
  attached.forM fun (entity, _) => do
    .note (.changed entity)
    .tell .info .capabilities s!"Added {type.short} to entity {entity}"
  let applied := targets.flatMap fun entity =>
    params.properties.keys.map fun field => ⟨entity, field⟩
  return { deed := .addedCapability, entities := ← editor.summaries targets, batch := { applied } }

/-- Detaches capabilities until one is refused; `removed` are the entities done before. -/
def detachEach (editor : Editor) (type : Descriptor) : (removed : List EntityId) →
    List (EntityId × CapabilityId) → Edit Unit
  | _, [] => return ()
  | removed, (entity, capability) :: rest => do
    match ← Edit.request (editor.detachRequest entity capability) with
    | .ok () =>
      .note (.changed entity)
      .tell .info .capabilities s!"Removed {type.short} from entity {entity}"
      editor.detachEach type (removed ++ [entity]) rest
    | .error refusal =>
      let report : Report := { error := .refused "remove capability" refusal.message }
      let report := report.attach s!"Entity: {entity}"
      if removed.isEmpty then throw report
      else
        let listed := String.intercalate ", " (removed.map toString)
        throw (report.attach s!"Already removed from: {listed}")

/-- Detaches a capability from every matching entity; all of them must have it. -/
def removeCapability (editor : Editor) (params : RemoveCapability) : Edit EntityReport := do
  let targets ← editor.targets params.target
  let type ← editor.capabilityType params.capability
  editor.detachEach type [] (← editor.capabilitiesOf type targets)
  return { deed := .removedCapability, entities := ← editor.summaries targets }

end SceneEdit.Editor
