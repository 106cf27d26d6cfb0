import SceneEdit.Error
import SceneEdit.Scene.Basic
import SceneEdit.Text.Plural
import SceneEdit.Token.Basic

/-!
# Replies

What each operation answers, its summary in one line, and the token it is shown as. A reply may
report property writes that failed while the rest was done; the response then counts as a failure
although it carries data.
-/

namespace SceneEdit

def EntityId.toToken (id : EntityId) : Token := .int id.number

def CapabilityId.toToken (id : CapabilityId) : Token := .int id.number

/-- Some entries if a value is there. -/
def entryIf {α : Type} (key : String) (value : Option α) (shown : α → Token) : Entries :=
  (value.map fun a => (key, shown a)).toList

/-- A property that was written. -/
structure FieldWrite where
  entity : EntityId
  /-- The path as it was given. -/
  field : String
  deriving DecidableEq, Repr

def FieldWrite.toToken (write : FieldWrite) : Token :=
  .obj [("entity", write.entity.toToken), ("field", .str write.field)]

/-- A property that was not written, and why. -/
structure FieldFailure where
  entity : EntityId
  /-- The path as it was given. -/
  field : String
  capability : TypeName
  error : Error
  deriving DecidableEq, Repr

namespace FieldFailure

def toToken (failure : FieldFailure) : Token :=
  .obj [("entity", failure.entity.toToken), ("field", .str failure.field),
    ("capability", .str failure.capability.text), ("kind", .str failure.error.kind.name),
    ("message", .str failure.error.message)]

/-- The failure as a detail of a response. -/
def detail (failure : FieldFailure) : String :=
  s!"entity {failure.entity} {failure.field}: {failure.error.message}"

end FieldFailure

/-- What became of property writes that do not depend on each other. -/
structure BatchReport where
  applied : List FieldWrite := []
  failures : List FieldFailure := []
  deriving DecidableEq, Repr

/-- Two reports, the second after the first. -/
def BatchReport.append (first second : BatchReport) : BatchReport :=
  ⟨first.applied ++ second.applied, first.failures ++ second.failures⟩

instance : Append BatchReport := ⟨BatchReport.append⟩

/-- An entity in brief. -/
structure EntitySummary where
  id : EntityId
  name : String
  /-- The names from the root down. -/
  path : String
  tag : String
  layer : Nat
  active : Bool
  parent : Option EntityId
  /-- The short names of its capabilities. -/
  capabilities : List String
  deriving DecidableEq, Repr

def EntitySummary.toToken (summary : EntitySummary) : Token :=
  .obj ([("id", summary.id.toToken), ("name", .str summary.name), ("path", .str summary.path),
      ("tag", .str summary.tag), ("layer", .nat summary.layer), ("active", .bool summary.active)] ++
    entryIf "parent" summary.parent EntityId.toToken ++
    [("capabilities", .arr (summary.capabilities.map .str))])

/-- A capability as it is shown. -/
structure CapabilityView where
  id : CapabilityId
  type : TypeName
  /-- What its members hold, if that was asked for. -/
  properties : Option Entries

/-- The capability with its members, or without. -/
def CapabilityView.of (capability : Capability) (properties : Option Entries) : CapabilityView :=
  ⟨capability.id, capability.type.fullName, properties⟩

def CapabilityView.toEntries (view : CapabilityView) : Entries :=
  [("id", view.id.toToken), ("type", .str view.type.text), ("name", .str view.type.short)] ++
    entryIf "properties" view.properties .obj

/-- Some of the capabilities of an entity. -/
structure CapabilityPage where
  entity : EntityId
  capabilities : List CapabilityView
  /-- How many the entity has. -/
  total : Nat
  /-- How many stand before this page. -/
  cursor : Nat
  /-- Where the next page starts, if there is one. -/
  nextCursor : Option Nat

/-- One capability, or one property of it. -/
structure CapabilityRead where
  entity : EntityId
  view : CapabilityView
  /-- The path that was read and what it holds. -/
  property : Option (String × Token)

/-- What was done to entities. -/
inductive Deed where
  | created
  | modified
  | duplicated
  | addedCapability
  | removedCapability
  | moved
  deriving DecidableEq, Repr

/-- The words that go before the names of the entities. -/
def Deed.verb : Deed → String
  | created => "Created"
  | modified => "Modified"
  | duplicated => "Duplicated"
  | addedCapability => "Added capability to"
  | removedCapability => "Removed capability from"
  | moved => "Moved"

/-- What was done to entities, and how they are now. -/
structure EntityReport where
  deed : Deed
  entities : List EntitySummary
  batch : BatchReport := {}
  deriving DecidableEq, Repr

/-- What was written into the capabilities of one type. -/
structure PropertyReport where
  entities : List EntityId
  capability : TypeName
  batch : BatchReport
  deriving DecidableEq, Repr

/-- The answer of an operation. -/
inductive Reply where
  | found (entities : List EntitySummary)
  | listed (page : CapabilityPage)
  | capability (read : CapabilityRead)
  | changed (report : EntityReport)
  | deleted (entities : List EntityId)
  | properties (report : PropertyReport)

namespace Reply

/-- What happened, in one line. -/
def message : Reply → String
  | found entities => s!"Found {entities.length} entit{Text.pluralY entities.length}"
  | listed page =>
    s!"Listed {page.capabilities.length} of {page.total} capabilities on entity {page.entity}"
  | capability read =>
    match read.property with
    | some (path, _) => s!"Read {read.view.type.short}.{path}"
    | none => s!"Read {read.view.type.short} on entity {read.entity}"
  | changed report =>
    let names := String.intercalate ", " (report.entities.map EntitySummary.name)
    let done := s!"{report.deed.verb} {names}"
    match report.batch.failures with
    | [] => done
    | failures => s!"{done} with {failures.length} failed field(s)"
  | deleted entities => s!"Deleted {entities.length} entit{Text.pluralY entities.length}"
  | properties report =>
    let applied := report.batch.applied.length
    let done := s!"Set {applied} propert{Text.pluralY applied} on {report.capability.short}"
    match report.batch.failures with
    | [] => done
    | failures => s!"{done}; {failures.length} failed"

/-- The property writes that failed. -/
def failures : Reply → List FieldFailure
  | changed report => report.batch.failures
  | properties report => report.batch.failures
  | _ => []

/-- A list under a key, if there is something in it. -/
def entryUnlessEmpty {α : Type} (key : String) (shown : α → Token) : List α → Entries
  | [] => []
  | items => [(key, .arr (items.map shown))]

def toToken : Reply → Token
  | found entities =>
    .obj [("entities", .arr (entities.map EntitySummary.toToken)), ("count", .nat entities.length)]
  | listed page =>
    .obj ([("entity", page.entity.toToken),
        ("capabilities", .arr (page.capabilities.map fun view => .obj view.toEntries)),
        ("total", .nat page.total), ("cursor", .nat page.cursor)] ++
      entryIf "next_cursor" page.nextCursor .nat)
  | capability read =>
    .obj ([("entity", read.entity.toToken)] ++ read.view.toEntries ++
      entryIf "path" (read.property.map Prod.fst) .str ++
      entryIf "value" (read.property.map Prod.snd) id)
  | changed report =>
    .obj ([("entities", .arr (report.entities.map EntitySummary.toToken))] ++
      entryUnlessEmpty "applied" FieldWrite.toToken report.batch.applied ++
      entryUnlessEmpty "failures" FieldFailure.toToken report.batch.failures)
  | deleted entities =>
    .obj [("deleted", .arr (entities.map EntityId.toToken)), ("count", .nat entities.length)]
  | properties report =>
    .obj [("entities", .arr (report.entities.map EntityId.toToken)),
      ("capability", .str report.capability.text),
      ("applied", .arr (report.batch.applied.map FieldWrite.toToken)),
      ("failures", .arr (report.batch.failures.map FieldFailure.toToken))]

end Reply

/-- A failure as responses show it. -/
structure ErrorPayload where
  kind : ErrorKind
  message : String
  details : List String
  deriving DecidableEq, Repr

namespace ErrorPayload

def ofReport (report : Report) : ErrorPayload :=
  ⟨report.error.kind, report.error.message, report.details⟩

/-- The first of some failed writes, with all of them as its details. -/
def ofFailures? : List FieldFailure → Option ErrorPayload
  | [] => none
  | first :: rest =>
    some ⟨first.error.kind, first.error.message, (first :: rest).map FieldFailure.detail⟩

def toToken (payload : ErrorPayload) : Token :=
  .obj ([("kind", .str payload.kind.name), ("message", .str payload.message)] ++
    Reply.entryUnlessEmpty "details" .str payload.details)

end ErrorPayload

/-- What a caller gets back. -/
structure Response where
  message : String
  /-- The reply; there when the operation was carried out, if only in part. -/
  data : Option Token
  error : Option ErrorPayload

namespace Response

/-- Whether the whole request was carried out. -/
def success (response : Response) : Bool := response.error.isNone

def ofReport (report : Report) : Response :=
  let error := ErrorPayload.ofReport report
  ⟨error.message, none, some error⟩

def ofReply (reply : Reply) : Response :=
  ⟨reply.message, some reply.toToken, ErrorPayload.ofFailures? reply.failures⟩

def toToken (response : Response) : Token :=
  .obj ([("success", .bool response.success), ("message", .str response.message)] ++
    entryIf "data" response.data id ++ entryIf "error" response.error ErrorPayload.toToken)

end Response
end SceneEdit
