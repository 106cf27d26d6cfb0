import SceneEdit.Scene.Basic
import SceneEdit.Text.Blank

/-!
# The hierarchy of a scene

Walking down from an entity lists it and its descendants, depth first and siblings in table order;
walking up from it visits its ancestors. No walk is longer than the table, since parent links never
run in a circle, and so the length of the table bounds every walk.
-/

namespace SceneEdit.Scene

/-- The children of an entity, or the roots, in table order. -/
def childIds (scene : Scene) (parent : Option EntityId) : List EntityId :=
  (scene.entities.filter fun entity => entity.parent = parent).map Entity.id

/-- An entity and what `children` puts below it, depth first, at most `bound` levels down. -/
def walk (children : EntityId → List EntityId) : (bound : Nat) → EntityId → List EntityId
  | 0, id => [id]
  | bound + 1, id => id :: (children id).flatMap (walk children bound)

/-- An entity and its descendants, depth first. -/
def subtree (scene : Scene) (id : EntityId) : List EntityId :=
  walk (fun parent => scene.childIds (some parent)) scene.entities.length id

/-- An identity and those that following `parent` leads to, nearest first, at most `bound`
links up. -/
def climb (parent : EntityId → Option EntityId) : (bound : Nat) → EntityId → List EntityId
  | 0, id => [id]
  | bound + 1, id => id :: ((parent id).map (climb parent bound)).getD []

/-- An entity and its ancestors, nearest first. -/
def lineage (scene : Scene) (id : EntityId) : List EntityId :=
  climb scene.parentOf? scene.entities.length id

/-- Whether an entity is another one or one of its descendants. -/
def isWithin (scene : Scene) (candidate ancestor : EntityId) : Bool :=
  (scene.lineage candidate).contains ancestor

/-- Whether an entity exists and it and all its ancestors are active. -/
def isActive (scene : Scene) (id : EntityId) : Bool :=
  (scene.lineage id).all fun ancestor => ((scene.entity? ancestor).map Entity.active).getD false

/-- Whether an entity is to be listed. -/
def isListed (scene : Scene) (includeInactive : Bool) (id : EntityId) : Bool :=
  includeInactive || scene.isActive id

/-- All entities, depth first from the roots. -/
def allEntities (scene : Scene) (includeInactive : Bool) : List EntityId :=
  ((scene.childIds none).flatMap scene.subtree).filter (scene.isListed includeInactive)

/-- The children of an entity. -/
def children (scene : Scene) (includeInactive : Bool) (id : EntityId) : List EntityId :=
  (scene.childIds (some id)).filter (scene.isListed includeInactive)

/-- Follows names downward, at each step to the first child that has the name. -/
def descend? (scene : Scene) : Option EntityId → List String → Option EntityId
  | current, [] => current
  | current, name :: rest =>
    let next := (scene.childIds current).find? fun id =>
      (scene.entity? id).any fun entity => entity.name = name
    next.bind fun id => scene.descend? (some id) rest

/-- The names in a hierarchy path: its pieces between slashes, trimmed, blank ones left out. -/
def pathNames (path : String) : List String :=
  ((path.toList.splitOn '/').map fun piece => String.ofList (Text.trimmed piece)).filter (· ≠ "")

/-- The entity at a path of names, from the roots or from the children of `scope`. -/
def atPath? (scene : Scene) (scope : Option EntityId) (path : String) : Option EntityId :=
  match pathNames path with
  | [] => none
  | names => scene.descend? scope names

end SceneEdit.Scene
