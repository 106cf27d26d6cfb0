import SceneEdit.Session.Inspect
import SceneEdit.Session.Modify

/-!
# Executing requests

A request names an operation and carries its parameters as a token. Execution always answers:
whatever goes wrong becomes part of the response.
-/

namespace SceneEdit

/-- The operations. -/
inductive Action where
  | find
  | readCapabilities
  | readCapability
  | create
  | modify
  | delete
  | duplicate
  | addCapability
  | removeCapability
  | setCapabilityProperties
  | moveRelative
  deriving DecidableEq, Repr

namespace Action

def name : Action → String
  | find => "find"
  | readCapabilities => "read_capabilities"
  | readCapability => "read_capability"
  | create => "create"
  | modify => "modify"
  | delete => "delete"
  | duplicate => "duplicate"
  | addCapability => "add_capability"
  | removeCapability => "remove_capability"
  | setCapabilityProperties => "set_capability_properties"
  | moveRelative => "move_relative"

/-- All operations, in the order in which messages list them. -/
def all : List Action :=
  [find, readCapabilities, readCapability, create, modify, delete, duplicate, addCapability,
    removeCapability, setCapabilityProperties, moveRelative]

/-- Other names under which operations are known. -/
def aliases : List (String × Action) :=
  [("get_components", readCapabilities), ("get_component", readCapability),
    ("add_component", addCapability), ("remove_component", removeCapability),
    ("set_component_property", setCapabilityProperties)]

/-- The operation a text names, in any case. -/
def parse? (text : String) : Option Action :=
  Text.lookupIgnoringCase (all.map (fun action => (action.name, action)) ++ aliases) text

end Action

namespace Editor

/-- Reads the parameters of an operation and carries it out. -/
def carryOut {α : Type} (action : Action) (decode : Decoder α) (params : Token)
    (run : α → Edit Reply) : Edit Reply :=
  match decode (if params.isNull then .obj [] else params) with
  | .ok decoded => run decoded
  | .error failure => fail (.invalid s!"{action.name} parameters" failure.message)

/-- Carries out an operation. -/
def perform (editor : Editor) (action : Action) (params : Token) : Edit Reply :=
  match action with
  | .find => carryOut action (Query.decodeFor "FindParams") params fun query =>
    .found <$> editor.find query
  | .readCapabilities => carryOut action ReadCapabilities.decode params fun params =>
    .listed <$> editor.readCapabilities params
  | .readCapability => carryOut action ReadCapability.decode params fun params =>
    .capability <$> editor.readCapability params
  | .create => carryOut action Create.decode params fun params =>
    .changed <$> editor.create params
  | .modify => carryOut action Modify.decode params fun params =>
    .changed <$> editor.modify params
  | .delete => carryOut action (Query.decodeFor "DeleteParams") params fun query =>
    .deleted <$> editor.delete query
  | .duplicate => carryOut action Duplicate.decode params fun params =>
    .changed <$> editor.duplicate params
  | .addCapability => carryOut action AddCapability.decode params fun params =>
    .changed <$> editor.addCapability params
  | .removeCapability => carryOut action RemoveCapability.decode params fun params =>
    .changed <$> editor.removeCapability params
  | .setCapabilityProperties => carryOut action SetProperties.decode params fun params =>
    .properties <$> editor.setProperties params
  | .moveRelative => carryOut action MoveRelative.decode params fun params =>
    .changed <$> editor.moveRelative params

/-- Names no operation. -/
def unknownAction (text : String) : Report :=
  let listed := String.intercalate ", " (Action.all.map Action.name)
  { error := .invalid "action" s!"'{text}'. Valid actions: {listed}" }

/-- Carries out an operation: the response to its outcome, and the session after it. -/
def respond (editor : Editor) (session : Session) (action : Action) (params : Token) :
    Response × Session :=
  let started := session.log [⟨.debug, .requests, s!"Executing {action.name}"⟩]
  match (editor.perform action params).run started with
  | (.ok reply, session) => (.ofReply reply, session)
  | (.error report, session) =>
    let failed := s!"{action.name} failed: {report.error.message}"
    (.ofReport report, session.log [⟨.debug, .requests, failed⟩])

/-- Executes a request in a session: the response, and the session after it. -/
def execute (editor : Editor) (session : Session) (action : String) (params : Token) :
    Response × Session :=
  match Action.parse? (Text.trim action) with
  | some action => editor.respond session action params
  | none => (.ofReport (unknownAction action), session)

end Editor
end SceneEdit
