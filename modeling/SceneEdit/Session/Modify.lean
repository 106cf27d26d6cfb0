import SceneEdit.Session.Create

/-!
# Modifying entities

A modification is planned before the first entity is touched: all names are resolved, and every
capability that is to be detached or written is looked up on every target. Then each entity in turn
is changed: capabilities are attached, the entity is moved in the hierarchy, capabilities are
detached, the record is changed, and at last properties are written one by one.
-/

namespace SceneEdit

/-- Writes with more entries for a type, joined to those it has. -/
def Writes.add : Writes → Descriptor → Entries → Writes
  | [], type, entries => [(type, entries)]
  | (known, existing) :: rest, type, entries =>
    if known = type then (known, existing.extend entries) :: rest
    else (known, existing) :: Writes.add rest type entries

/-- What a modification does to each entity. -/
structure ModifyPlan where
  record : RecordChange
  parent : NewParent
  added : Writes
  writes : Writes

namespace Editor

/-- Adds the properties given for capability types to the writes. -/
def plannedWrites (editor : Editor) : Writes → Entries → Edit Writes
  | writes, [] => return writes
  | writes, (name, .obj entries) :: rest => do
    let type ← editor.capabilityType name
    editor.plannedWrites (writes.add type entries) rest
  | _, (name, _) :: _ =>
    fail (.invalid "capability_properties"
      s!"'{name}' must map to an object of property paths")

/-- A new parent is no target and not below one. -/
def checkParent (editor : Editor) (targets : List EntityId) : NewParent → Edit Unit
  | some (some parent) => do
    let scene ← .scene
    match targets.find? fun id => editor.host.isWithin scene parent id with
    | some id =>
      fail (.cannot "re-parent" s!"entity {parent} is entity {id} or one of its descendants")
    | none => return ()
  | _ => return ()

/-- Every capability that is written is on every target, unless the plan attaches it. -/
def checkWritable (editor : Editor) (targets : List EntityId) (plan : ModifyPlan) : Edit Unit :=
  plan.writes.forM fun (type, _) => do
    if !(plan.added.any fun (added, _) => added = type) then
      let _ ← editor.capabilitiesOf type targets

/-- Attaches capabilities to an entity and moves it in the hierarchy, or does neither. -/
def attachAndMove (editor : Editor) (entity : EntityId) (plan : ModifyPlan) : Edit Unit := do
  let attached ← editor.attachAll [] (plan.added.map fun (type, properties) =>
    (entity, type, properties))
  if let some parent := plan.parent then
    (Edit.require "re-parent" (editor.parentRequest entity parent)).orUndo
      (editor.detachAll attached) id

/-- Detaches capabilities from an entity until one is refused, and tells whether the entity has
changed; `changed` is whether it had before. -/
def detachFrom (editor : Editor) (id : EntityId) : (changed : Bool) → List CapabilityId →
    Edit (Bool × Except Report Unit)
  | changed, [] => return (changed, .ok ())
  | changed, capability :: rest => do
    match ← (Edit.require "remove capability" (editor.detachRequest id capability)).outcome with
    | .ok () => editor.detachFrom id true rest
    | .error report => return (changed, .error report)

/-- Carries out what a plan says about an entity, its properties apart: whether the entity has
changed, and the failure that stopped it. What comes first can be undone or leaves nothing behind;
detaching cannot be undone and comes after it. -/
def restructure (editor : Editor) (id : EntityId) (plan : ModifyPlan)
    (removed : List CapabilityId) : Edit (Bool × Except Report Unit) := do
  match ← (editor.attachAndMove id plan).outcome with
  | .error report => return (false, .error report)
  | .ok () =>
    match ← editor.detachFrom id (!plan.added.isEmpty || plan.parent.isSome) removed with
    | (changed, .error report) => return (changed, .error report)
    | (changed, .ok ()) =>
      match ← (editor.changeRecord id plan.record).outcome with
      | .error report => return (changed, .error report)
      | .ok () => return (changed || !plan.record.isEmpty, .ok ())

/-- Writes properties into the capabilities of an entity. -/
def writeProperties (editor : Editor) (id : EntityId) : Writes → Edit BatchReport
  | [] => return {}
  | (type, entries) :: rest => do
    let capability ← editor.capabilityOf type id
    let report ← editor.writeEach id type capability.id entries
    return report ++ (← editor.writeProperties id rest)

/-- Carries out a plan on one entity. -/
def modifyOne (editor : Editor) (plan : ModifyPlan) (id : EntityId)
    (removed : List CapabilityId) : Edit BatchReport := do
  let (changed, outcome) ← editor.restructure id plan removed
  if changed then .note (.changed id)
  .ofExcept outcome
  editor.writeProperties id plan.writes

/-- Carries out a plan on entities, each with the capabilities to detach; `done` are those before
them. -/
def modifyEach (editor : Editor) (plan : ModifyPlan) : (done : List EntityId) →
    List (EntityId × List CapabilityId) → Edit BatchReport
  | _, [] => return {}
  | done, (id, removed) :: rest => do
    let listed := String.intercalate ", " (done.map toString)
    let report ← (editor.modifyOne plan id removed).reporting fun report =>
      if done.isEmpty then report else report.attach s!"Already modified: {listed}"
    return report ++ (← editor.modifyEach plan (done ++ [id]) rest)

/-- The capabilities of each target to detach, given them for each type. -/
def removals (targets : List EntityId) (byType : List (List (EntityId × CapabilityId))) :
    List (EntityId × List CapabilityId) :=
  targets.map fun id => (id, byType.filterMap fun found => found.lookup id)

/-- What is looked up before the new parent is checked. -/
structure Gathered where
  targets : List EntityId
  layer : Option Nat
  parent : NewParent
  removed : List Descriptor
  added : Writes
  writes : Writes

/-- Looks up the entities, the layer and the types that a modification names. -/
def gather (editor : Editor) (params : Modify) : Edit Gathered := do
  let targets ← editor.targets params.target
  let layer ← params.layer.mapM editor.layer
  let parent ← editor.newParent params.parent
  let removed ← params.removeCapabilities.mapM editor.capabilityType
  let added ← editor.specTypes params.addCapabilities
  let placed := match ← editor.placementType params.placement with
    | some type => [(type, params.placement.entries editor.config.transform)]
    | none => []
  let writes ← editor.plannedWrites placed params.capabilityProperties
  return ⟨targets, layer, parent, removed, added, writes⟩

/-- What a modification needs to be carried out: its targets, the types to detach, what to do to
each target, and the capabilities to detach by type. -/
structure Prepared where
  targets : List EntityId
  removed : List Descriptor
  plan : ModifyPlan
  byType : List (List (EntityId × CapabilityId))

/-- Makes a plan of what was gathered, and looks up the capabilities that it detaches and writes. -/
def arrange (editor : Editor) (params : Modify) (gathered : Gathered) : Edit Prepared := do
  let name ← editor.nonBlank "name" params.name
  let record : RecordChange :=
    { name, tag := params.tag, layer := gathered.layer, active := params.active }
  let plan : ModifyPlan :=
    { record, parent := gathered.parent, added := gathered.added, writes := gathered.writes }
  let byType ← gathered.removed.mapM fun type => editor.capabilitiesOf type gathered.targets
  editor.checkWritable gathered.targets plan
  return ⟨gathered.targets, gathered.removed, plan, byType⟩

/-- Looks up and checks all that a modification names. -/
def prepare (editor : Editor) (params : Modify) : Edit Prepared := do
  let gathered ← editor.gather params
  editor.checkParent gathered.targets gathered.parent
  editor.arrange params gathered

/-- Carries out what was prepared. -/
def finish (editor : Editor) (prepared : Prepared) : Edit EntityReport := do
  let batch ← editor.modifyEach prepared.plan [] (removals prepared.targets prepared.byType)
  return { deed := .modified, entities := ← editor.summaries prepared.targets, batch }

/-- Changes every matching entity. -/
def modify (editor : Editor) (params : Modify) : Edit EntityReport :=
  editor.prepare params >>= editor.finish

end Editor
end SceneEdit
