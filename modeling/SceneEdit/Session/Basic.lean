import SceneEdit.Config
import SceneEdit.Path.Access
import SceneEdit.Query.Search

/-!
# Sessions

A session holds what its operations change: the scene, the types resolved so far, the notes for
observers and the log. An operation is an `Edit`: it may fail, and what it changed before it failed
stays changed, so undoing is the business of each operation. The editor is what operations depend
on and never change: the host and the configuration.
-/

namespace SceneEdit

/-- What observers are told, once for each change. -/
inductive Note where
  | created (entity : EntityId)
  | destroyed (entity : EntityId)
  /-- The record or the capabilities of an entity changed. -/
  | changed (entity : EntityId)
  /-- The state of a capability changed. -/
  | wrote (entity : EntityId) (capability : CapabilityId)
  deriving DecidableEq, Repr

/-- What operations change. -/
structure Session where
  scene : Scene := {}
  types : TypeCache := {}
  /-- In the order in which they were sent. -/
  notes : List Note := []
  events : List Event := []

/-- The session with more events in its log. -/
def Session.log (session : Session) (events : List Event) : Session :=
  { session with events := session.events ++ events }

/-- What operations depend on. -/
structure Editor where
  host : Host := {}
  config : Config := {}

namespace Editor

/-- How the editor reads and writes along paths. -/
def access (editor : Editor) : Access :=
  { env := editor.host.env, sigil := editor.config.shaderSigil }

end Editor

/-- A computation that changes a session and may fail with a report. -/
abbrev Edit := ExceptT Report (StateM Session)

namespace Edit

variable {α : Type}

/-- A computation that changes nothing but the log. -/
def ofAttempt (x : Attempt α) : Edit α :=
  ExceptT.mk fun session => (x.result, session.log x.events)

/-- A result, or a failure at once. -/
def ofExcept (x : Except Report α) : Edit α := ofAttempt (.ofExcept x)

/-- What is there, or the error that it is not. -/
def ofOption (error : Error) : Option α → Edit α
  | some a => pure a
  | none => fail error

/-- Put an event into the log. -/
def tell (level : Level) (source : Source) (text : String) : Edit Unit :=
  ofAttempt (.tell level source text)

/-- Send a note to the observers. -/
def note (note : Note) : Edit Unit :=
  modify fun session => { session with notes := session.notes ++ [note] }

/-- The scene as it is now. -/
def scene : Edit Scene := return (← get).scene

/-- Change the record of an entity. -/
def modifyEntity (id : EntityId) (change : Entity → Entity) : Edit Unit :=
  modify fun session => { session with scene := session.scene.modify id change }

/-- The outcome of a computation, whose failure is thereby caught. -/
def outcome (x : Edit α) : Edit (Except Report α) := ExceptT.mk fun session =>
  let (result, session) := x.run session
  (.ok result, session)

/-- A computation whose failure is cleaned up after, and then reported as `adjust` puts it. -/
def orUndo (x : Edit α) (undo : Edit Unit) (adjust : Report → Report) : Edit α :=
  tryCatch x fun report => do
    undo
    throw (adjust report)

/-- A computation whose failure is reported as `adjust` puts it. -/
def reporting (adjust : Report → Report) (x : Edit α) : Edit α := ExceptT.adapt adjust x

/-- Asks the host for a change of the scene; a refusal is a result. -/
def request (change : Scene → Traced SceneError (α × Scene)) : Edit (Except SceneError α) :=
  ExceptT.mk fun session =>
    let asked := change session.scene
    let session := session.log asked.events
    match asked.result with
    | .ok (a, scene) => (.ok (.ok a), { session with scene })
    | .error refusal => (.ok (.error refusal), session)

/-- Asks the host for a change of the scene; a refusal is a failure. -/
def require (operation : String) (change : Scene → Traced SceneError (α × Scene)) : Edit α := do
  match ← request change with
  | .ok a => return a
  | .error refusal => fail (.refused operation refusal.message)

end Edit

namespace Editor

/-! ### Changes the host carries out -/

def createRequest (editor : Editor) (name : String) (parent : Option EntityId) (scene : Scene) :
    Traced SceneError (EntityId × Scene) := editor.host.create scene name parent

def destroyRequest (editor : Editor) (id : EntityId) (scene : Scene) :
    Traced SceneError (Unit × Scene) := ((), ·) <$> editor.host.destroy scene id

def duplicateRequest (editor : Editor) (id : EntityId) (name : String) (scene : Scene) :
    Traced SceneError (EntityId × Scene) := editor.host.duplicate scene id name

def parentRequest (editor : Editor) (id : EntityId) (parent : Option EntityId) (scene : Scene) :
    Traced SceneError (Unit × Scene) := ((), ·) <$> editor.host.setParent scene id parent

def attachRequest (editor : Editor) (id : EntityId) (type : Descriptor) (state : Object)
    (scene : Scene) : Traced SceneError (CapabilityId × Scene) :=
  editor.host.attach scene id type state

def detachRequest (editor : Editor) (id : EntityId) (capability : CapabilityId) (scene : Scene) :
    Traced SceneError (Unit × Scene) := ((), ·) <$> editor.host.detach scene id capability

end Editor
end SceneEdit
