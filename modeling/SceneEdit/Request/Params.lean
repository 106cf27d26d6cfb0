import SceneEdit.Query.Basic
import SceneEdit.Request.Form
import SceneEdit.Text.Case

/-!
# Parameters of the operations

What each operation is asked with, how it is read from a token, and the token it is shown as.
-/

namespace SceneEdit

namespace Query

/-- The fields of a query. Taken into another form they are read leniently. -/
def form (lenient : Bool) : Form Query :=
  Query.mk
    <$> .required "target" Decoder.reference ["search_term"]
    <*> .optional "search_method" (Decoder.variant lenient Strategy.names) .byIdOrNameOrPath
    <*> .optional "scope_root" (Decoder.optional Decoder.reference) none
    <*> .optional "include_inactive" Decoder.boolean false
    <*> .optional "find_all" Decoder.boolean false

/-- The fields of a query among those of another form. -/
def included : Form Query := .including (form true)

def toEntries (query : Query) : Entries :=
  [("target", .str query.term), ("search_method", .str query.strategy.name),
    ("scope_root", (query.scope.map Token.str).getD .null),
    ("include_inactive", .bool query.includeInactive), ("find_all", .bool query.findAll)]

end Query

/-- A capability to attach and the values to write into it. -/
structure CapabilitySpec where
  typeName : String
  properties : Entries

namespace CapabilitySpec

def form : Form CapabilitySpec :=
  CapabilitySpec.mk
    <$> .required "type" Decoder.string ["name"]
    <*> .optional "properties" Decoder.entries []

def decode : Decoder CapabilitySpec := form.decoder "CapabilitySpec"

def toToken (spec : CapabilitySpec) : Token :=
  .obj [("type", .str spec.typeName), ("properties", .obj spec.properties)]

end CapabilitySpec

/-- Values for the transform of an entity. -/
structure Placement where
  position : Option Token
  rotation : Option Token
  scale : Option Token

namespace Placement

def form : Form Placement :=
  Placement.mk
    <$> .optional "position" (Decoder.optional Decoder.anything) none
    <*> .optional "rotation" (Decoder.optional Decoder.anything) none
    <*> .optional "scale" (Decoder.optional Decoder.anything) none

def included : Form Placement := .including form

def isEmpty (placement : Placement) : Bool :=
  placement.position.isNone && placement.rotation.isNone && placement.scale.isNone

def toEntries (placement : Placement) : Entries :=
  [("position", placement.position), ("rotation", placement.rotation),
    ("scale", placement.scale)].filterMap fun (name, token) => token.map fun t => (name, t)

end Placement

/-- What becomes of the parent of an entity. -/
inductive ParentChange where
  | keep
  | toRoot
  | under (reference : String)
  deriving DecidableEq, Repr

namespace ParentChange

/-- A field for the parent: null moves to the root, absence keeps the parent. -/
def field : Form ParentChange :=
  .optional "parent"
    (fun token => (Decoder.optional Decoder.reference token).map fun reference? =>
      match reference? with
      | some reference => .under reference
      | none => .toRoot)
    .keep

def toToken : ParentChange → Token
  | under reference => .str reference
  | _ => .null

end ParentChange

/-- A direction along an axis. -/
inductive Direction where
  | left
  | right
  | up
  | down
  | forward
  | back
  deriving DecidableEq, Repr

namespace Direction

def name : Direction → String
  | left => "left"
  | right => "right"
  | up => "up"
  | down => "down"
  | forward => "forward"
  | back => "back"

/-- The accepted names, an alias included, in the order in which messages list them. -/
def names : List (String × Direction) :=
  [("left", left), ("right", right), ("up", up), ("down", down), ("forward", forward),
    ("back", back), ("backward", back)]

/-- The direction a text names, in any case. -/
def parse? (text : String) : Option Direction := Text.lookupIgnoringCase names text

end Direction

/-- A field that holds an optional token as null. -/
def optionToken {α : Type} (show' : α → Token) (value : Option α) : Token :=
  (value.map show').getD .null

/-- What to read of the capabilities of an entity, a page at a time. -/
structure ReadCapabilities where
  target : Query
  pageSize : Option Nat
  cursor : Nat
  includeProperties : Option Bool
  includeHidden : Option Bool

namespace ReadCapabilities

def form : Form ReadCapabilities :=
  ReadCapabilities.mk
    <$> Query.included
    <*> .optional "page_size" (Decoder.optional Decoder.count) none
    <*> .optional "cursor" Decoder.count 0
    <*> .optional "include_properties" (Decoder.optional Decoder.boolean) none
    <*> .optional "include_hidden" (Decoder.optional Decoder.boolean) none

def decode : Decoder ReadCapabilities := form.decoder "ReadCapabilitiesParams"

def toToken (params : ReadCapabilities) : Token :=
  .obj (params.target.toEntries ++
    [("page_size", optionToken .nat params.pageSize), ("cursor", .nat params.cursor),
      ("include_properties", optionToken .bool params.includeProperties),
      ("include_hidden", optionToken .bool params.includeHidden)])

end ReadCapabilities

/-- Which capability to read, or which property of it. -/
structure ReadCapability where
  target : Query
  capability : String
  property : Option String
  includeHidden : Option Bool

namespace ReadCapability

def form : Form ReadCapability :=
  ReadCapability.mk
    <$> Query.included
    <*> .required "capability" Decoder.string
    <*> .optional "property" (Decoder.optional Decoder.string) none
    <*> .optional "include_hidden" (Decoder.optional Decoder.boolean) none

def decode : Decoder ReadCapability := form.decoder "ReadCapabilityParams"

def toToken (params : ReadCapability) : Token :=
  .obj (params.target.toEntries ++
    [("capability", .str params.capability), ("property", optionToken .str params.property),
      ("include_hidden", optionToken .bool params.includeHidden)])

end ReadCapability

/-- The entity to create. -/
structure Create where
  name : String
  parent : Option String
  tag : Option String
  layer : Option String
  active : Option Bool
  placement : Placement
  capabilities : List CapabilitySpec

namespace Create

def form : Form Create :=
  Create.mk
    <$> .required "name" Decoder.string
    <*> .optional "parent" (Decoder.optional Decoder.reference) none
    <*> .optional "tag" (Decoder.optional Decoder.string) none
    <*> .optional "layer" (Decoder.optional Decoder.reference) none
    <*> .optional "active" (Decoder.optional Decoder.boolean) none
    <*> Placement.included
    <*> .optional "capabilities" (Decoder.list CapabilitySpec.decode) []

def decode : Decoder Create := form.decoder "CreateParams"

def toToken (params : Create) : Token :=
  .obj ([("name", .str params.name), ("parent", optionToken .str params.parent),
      ("tag", optionToken .str params.tag), ("layer", optionToken .str params.layer),
      ("active", optionToken .bool params.active)] ++ params.placement.toEntries ++
    [("capabilities", .arr (params.capabilities.map CapabilitySpec.toToken))])

end Create

/-- The changes to make to entities. -/
structure Modify where
  target : Query
  name : Option String
  tag : Option String
  layer : Option String
  active : Option Bool
  parent : ParentChange
  placement : Placement
  addCapabilities : List CapabilitySpec
  removeCapabilities : List String
  capabilityProperties : Entries

namespace Modify

def form : Form Modify :=
  Modify.mk
    <$> Query.included
    <*> .optional "name" (Decoder.optional Decoder.string) none
    <*> .optional "tag" (Decoder.optional Decoder.string) none
    <*> .optional "layer" (Decoder.optional Decoder.reference) none
    <*> .optional "active" (Decoder.optional Decoder.boolean) none
    <*> ParentChange.field
    <*> Placement.included
    <*> .optional "add_capabilities" (Decoder.list CapabilitySpec.decode) []
    <*> .optional "remove_capabilities" (Decoder.list Decoder.string) []
    <*> .optional "capability_properties" Decoder.entries []

def decode : Decoder Modify := form.decoder "ModifyParams"

def toToken (params : Modify) : Token :=
  .obj (params.target.toEntries ++
    [("name", optionToken .str params.name), ("tag", optionToken .str params.tag),
      ("layer", optionToken .str params.layer), ("active", optionToken .bool params.active),
      ("parent", params.parent.toToken)] ++ params.placement.toEntries ++
    [("add_capabilities", .arr (params.addCapabilities.map CapabilitySpec.toToken)),
      ("remove_capabilities", .arr (params.removeCapabilities.map .str)),
      ("capability_properties", .obj params.capabilityProperties)])

end Modify

/-- The entity to copy, and what the copy is to be. -/
structure Duplicate where
  target : Query
  newName : Option String
  position : Option Token
  offset : Option Token
  parent : ParentChange

namespace Duplicate

def form : Form Duplicate :=
  Duplicate.mk
    <$> Query.included
    <*> .optional "new_name" (Decoder.optional Decoder.string) none
    <*> .optional "position" (Decoder.optional Decoder.anything) none
    <*> .optional "offset" (Decoder.optional Decoder.anything) none
    <*> ParentChange.field

def decode : Decoder Duplicate := form.decoder "DuplicateParams"

def toToken (params : Duplicate) : Token :=
  .obj (params.target.toEntries ++
    [("new_name", optionToken .str params.newName), ("position", params.position.getD .null),
      ("offset", params.offset.getD .null), ("parent", params.parent.toToken)])

end Duplicate

/-- The capability to attach to entities. -/
structure AddCapability where
  target : Query
  capability : String
  properties : Entries

namespace AddCapability

def form : Form AddCapability :=
  AddCapability.mk
    <$> Query.included
    <*> .required "capability" Decoder.string
    <*> .optional "properties" Decoder.entries []

def decode : Decoder AddCapability := form.decoder "AddCapabilityParams"

def toToken (params : AddCapability) : Token :=
  .obj (params.target.toEntries ++
    [("capability", .str params.capability), ("properties", .obj params.properties)])

end AddCapability

/-- The capability to detach from entities. -/
structure RemoveCapability where
  target : Query
  capability : String

namespace RemoveCapability

def form : Form RemoveCapability :=
  RemoveCapability.mk
    <$> Query.included
    <*> .required "capability" Decoder.string

def decode : Decoder RemoveCapability := form.decoder "RemoveCapabilityParams"

def toToken (params : RemoveCapability) : Token :=
  .obj (params.target.toEntries ++ [("capability", .str params.capability)])

end RemoveCapability

/-- The values to write into a capability of entities. -/
structure SetProperties where
  target : Query
  capability : String
  properties : Entries
  property : Option String
  value : Option Token

namespace SetProperties

def form : Form SetProperties :=
  SetProperties.mk
    <$> Query.included
    <*> .required "capability" Decoder.string
    <*> .optional "properties" Decoder.entries []
    <*> .optional "property" (Decoder.optional Decoder.string) none
    <*> .optional "value" (Decoder.optional Decoder.anything) none

def decode : Decoder SetProperties := form.decoder "SetCapabilityPropertiesParams"

/-- All values to write: the map, then the single one. -/
def entries (params : SetProperties) : Entries :=
  match params.property with
  | some property => params.properties.insert property (params.value.getD .null)
  | none => params.properties

def toToken (params : SetProperties) : Token :=
  .obj (params.target.toEntries ++
    [("capability", .str params.capability), ("properties", .obj params.properties),
      ("property", optionToken .str params.property), ("value", params.value.getD .null)])

end SetProperties

/-- Where to move entities, seen from another one. -/
structure MoveRelative where
  target : Query
  reference : String
  direction : Direction
  distance : Single
  offset : Option Token
  worldSpace : Bool

namespace MoveRelative

def form : Form MoveRelative :=
  MoveRelative.mk
    <$> Query.included
    <*> .required "reference" Decoder.reference
    <*> .required "direction" (Decoder.variant false Direction.names)
    <*> .optional "distance" Decoder.component (.ofInt .single 1)
    <*> .optional "offset" (Decoder.optional Decoder.anything) none
    <*> .optional "world_space" Decoder.boolean false

def decode : Decoder MoveRelative := form.decoder "MoveRelativeParams"

def toToken (params : MoveRelative) : Token :=
  .obj (params.target.toEntries ++
    [("reference", .str params.reference), ("direction", .str params.direction.name),
      ("distance", .component params.distance), ("offset", params.offset.getD .null),
      ("world_space", .bool params.worldSpace)])

end MoveRelative

namespace Query

/-- A query alone, by name or by position. -/
def decode : Decoder Query := (form false).decoder "TargetParams"

/-- A query as the parameters of an operation. -/
def decodeFor (record : String) : Decoder Query := included.decoder record

def toToken (query : Query) : Token := .obj query.toEntries

end Query

namespace Placement

def decode : Decoder Placement := form.decoder "PlacementParams"

def toToken (placement : Placement) : Token := .obj placement.toEntries

end Placement
end SceneEdit
