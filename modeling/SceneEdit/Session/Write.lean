import SceneEdit.Request.Params
import SceneEdit.Session.Lookup

/-!
# Writing properties

There are two ways to write several properties. A batch writes each one whatever becomes of the
others and reports failures one by one; everywhere else the first failure ends the writing.
-/

namespace SceneEdit

/-- What became of a batch: the object after it, the outcome of each entry, and the log. -/
structure Batch where
  object : Object
  /-- The fields in order, each with its failure if it has one. -/
  outcomes : List (String × Option Report)
  events : List Event

namespace Access

/-- Writes each entry, going on after failures; `complaint` is the event for a failure. -/
def writeEach (access : Access) (complaint : String → Error → Event) : Object → Entries → Batch
  | object, [] => ⟨object, [], []⟩
  | object, (field, token) :: rest =>
    let written := access.write object field token
    match written.result with
    | .ok changed =>
      let batch := access.writeEach complaint changed rest
      ⟨batch.object, (field, none) :: batch.outcomes, written.events ++ batch.events⟩
    | .error report =>
      let batch := access.writeEach complaint object rest
      ⟨batch.object, (field, some report) :: batch.outcomes,
        written.events ++ complaint field report.error :: batch.events⟩

/-- Writes entries up to the first failure; the object holds what was written before it. -/
def writeAll (access : Access) : Object → Entries → Object × Attempt Unit
  | object, [] => (object, pure ())
  | object, (field, token) :: rest =>
    let written := access.write object field token
    match written.result with
    | .ok changed =>
      let (final, others) := access.writeAll changed rest
      (final, ⟨others.result, written.events ++ others.events⟩)
    | .error report => (object, ⟨.error report, written.events⟩)

end Access

/-- The report of a batch on a capability of an entity. -/
def BatchReport.ofOutcomes (entity : EntityId) (capability : TypeName)
    (outcomes : List (String × Option Report)) : BatchReport where
  applied := outcomes.filterMap fun (field, failure?) =>
    if failure?.isNone then some ⟨entity, field⟩ else none
  failures := outcomes.filterMap fun (field, failure?) =>
    failure?.map fun report => ⟨entity, field, capability, report.error⟩

namespace Editor

/-- The state of a capability that is to be written. -/
def stateOf (editor : Editor) (entity : EntityId) (capability : CapabilityId) : Edit Object := do
  let attached? := (editor.host.editableEntity? (← .scene) entity).bind fun record =>
    record.attached? capability
  .ofOption (.notFound s!"entity {entity} has no capability {capability}")
    (attached?.map Capability.state)

/-- Writes entries into a capability, up to the first failure. -/
def writeAll (editor : Editor) (entity : EntityId) (type : Descriptor) (capability : CapabilityId)
    (entries : Entries) : Edit Unit := do
  let (state, written) := editor.access.writeAll (← editor.stateOf entity capability) entries
  Edit.modifyEntity entity fun record => record.setState capability state
  .ofAttempt (written.mapError fun report => report.attach s!"Capability: {type.fullName.text}")

/-- The event for an entry of a batch that failed. -/
def complaint (entity : EntityId) (type : Descriptor) (field : String) (error : Error) : Event :=
  ⟨.warn, .requests, s!"Could not set {type.short}.{field} on entity {entity}: {error.message}"⟩

/-- Writes each entry into a capability and tells observers if any was written. -/
def writeEach (editor : Editor) (entity : EntityId) (type : Descriptor) (capability : CapabilityId)
    (entries : Entries) : Edit BatchReport := do
  let state ← editor.stateOf entity capability
  let batch := editor.access.writeEach (complaint entity type) state entries
  Edit.modifyEntity entity fun record => record.setState capability batch.object
  .ofAttempt ⟨.ok (), batch.events⟩
  let report := BatchReport.ofOutcomes entity type.fullName batch.outcomes
  if !report.applied.isEmpty then .note (.wrote entity capability)
  return report

/-- Writes the same batch into the capabilities of several entities. -/
def writeEachTo (editor : Editor) (type : Descriptor) (entries : Entries) :
    List (EntityId × CapabilityId) → Edit BatchReport
  | [] => return {}
  | (entity, capability) :: rest => do
    let report ← editor.writeEach entity type capability entries
    return report ++ (← editor.writeEachTo type entries rest)

/-- Writes properties of a capability on every matching entity; all of them must have the
capability before anything is written. -/
def setProperties (editor : Editor) (params : SetProperties) : Edit PropertyReport := do
  if params.entries.isEmpty then fail (.missing "properties")
  let targets ← editor.targets params.target
  let type ← editor.capabilityType params.capability
  let attached ← editor.capabilitiesOf type targets
  let batch ← editor.writeEachTo type params.entries attached
  return ⟨targets, type.fullName, batch⟩

end Editor
end SceneEdit
