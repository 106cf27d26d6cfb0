import SceneEdit.Request.Params
import SceneEdit.Session.Lookup
import SceneEdit.Value.Token

/-!
# Inspecting a scene

Finding entities and reading capabilities, whole, in pages, or one property at a time. Nothing
here changes the scene.
-/

namespace SceneEdit.Editor

/-- The entities that a query matches; no match is an empty reply. -/
def find (editor : Editor) (query : Query) : Edit (List EntitySummary) := do
  editor.summaries (← editor.search query)

/-- How many capabilities a page holds. -/
def pageSize (editor : Editor) : Option Nat → Edit Nat
  | none => return editor.config.defaultPageSize
  | some 0 => fail (.invalid "page_size" "must be at least 1")
  | some size => return min size editor.config.maxPageSize

/-- The capabilities of an entity from a place on, at most `size` of them. -/
def capabilityPage (entity : Entity) (id : EntityId) (cursor size : Nat)
    (view : Capability → CapabilityView) : CapabilityPage :=
  let shown := ((entity.capabilities.drop cursor).take size).map view
  let total := entity.capabilities.length
  let stop := cursor + shown.length
  { entity := id
    capabilities := shown
    total
    cursor
    nextCursor := if stop < total then some stop else none }

/-- One page of the capabilities of the first matching entity. -/
def readCapabilities (editor : Editor) (params : ReadCapabilities) : Edit CapabilityPage := do
  let size ← editor.pageSize params.pageSize
  let hidden := params.includeHidden.getD editor.config.includeHidden
  let id ← editor.firstTarget params.target
  let entity ← .ofExcept (editor.host.record (← .scene) id)
  let total := entity.capabilities.length
  if total < params.cursor then
    fail (.invalid "cursor" s!"{params.cursor} is past the last capability ({total})")
  return capabilityPage entity id params.cursor size fun capability =>
    .of capability (if params.includeProperties.getD true then
      some (Value.tableEntries hidden capability.state) else none)

/-- A capability of the first matching entity, or what one of its paths holds. -/
def readCapability (editor : Editor) (params : ReadCapability) : Edit CapabilityRead := do
  let id ← editor.firstTarget params.target
  let type ← editor.capabilityType params.capability
  let hidden := params.includeHidden.getD editor.config.includeHidden
  let capability ← editor.capabilityOf type id
  match params.property with
  | some path =>
    let value ← .ofAttempt (editor.access.read capability.state path)
    return ⟨id, .of capability none, some (path, value.toToken hidden)⟩
  | none => return ⟨id, .of capability (some (Value.tableEntries hidden capability.state)), none⟩

end SceneEdit.Editor
