/-!
# Queries

What to look for among the entities of a scene, and how.
-/

namespace SceneEdit

/-- How a search term is matched. -/
inductive Strategy where
  | byId
  | byName
  /-- A path of names, from the scope if there is one. -/
  | byPath
  | byTag
  /-- The index or the name of a layer. -/
  | byLayer
  /-- The type of a capability. -/
  | byComponent
  /-- As an identity, else as a path, else as a name. -/
  | byIdOrNameOrPath
  deriving DecidableEq, Repr

namespace Strategy

def name : Strategy → String
  | byId => "by_id"
  | byName => "by_name"
  | byPath => "by_path"
  | byTag => "by_tag"
  | byLayer => "by_layer"
  | byComponent => "by_component"
  | byIdOrNameOrPath => "by_id_or_name_or_path"

/-- The accepted names, an alias included, in the order in which messages list them. -/
def names : List (String × Strategy) :=
  [("by_id", byId), ("by_name", byName), ("by_path", byPath), ("by_tag", byTag),
    ("by_layer", byLayer), ("by_capability", byComponent), ("by_component", byComponent),
    ("by_id_or_name_or_path", byIdOrNameOrPath)]

/-- The strategy with a name, spelled exactly. -/
def parse? (text : String) : Option Strategy := names.lookup text

end Strategy

/-- A search for entities. -/
structure Query where
  term : String
  strategy : Strategy := .byIdOrNameOrPath
  /-- Search only this entity and its descendants. -/
  scope : Option String := none
  includeInactive : Bool := false
  /-- All matches, not only the first. -/
  findAll : Bool := false
  deriving DecidableEq, Repr

end SceneEdit
