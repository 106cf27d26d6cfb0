import SceneEdit.Number.Numeral
import SceneEdit.Query.Basic
import SceneEdit.Scene.Host
import SceneEdit.Text.Plural
import SceneEdit.Types.Resolution

/-!
# Searching entities

A search runs over a pool of entities: all of them, or the scope and its descendants. Several
matches are no error; unless all are asked for, the first one counts. A reference to one entity,
such as a parent or a scope, is strict instead: it must name exactly one.
-/

namespace SceneEdit

/-- The entity identity a term writes. -/
def EntityId.parse? (term : String) : Option EntityId :=
  (Numeral.int64? term.toList).map EntityId.mk

namespace Host

/-- The entities of a pool whose records satisfy a condition. -/
def select (host : Host) (scene : Scene) (pool : List EntityId) (condition : Entity → Bool) :
    List EntityId :=
  pool.filter fun id => (host.entity? scene id).any condition

/-- The entity at a path of names, if the pool has it. -/
def selectPath (scene : Scene) (scope : Option EntityId) (pool : List EntityId) (term : String) :
    List EntityId :=
  ((scene.atPath? scope term).filter pool.contains).toList

/-- The entities a term names as an identity, else as a path, else by name. -/
def selectLoosely (host : Host) (scene : Scene) (scope : Option EntityId) (pool : List EntityId)
    (term : String) : List EntityId :=
  let byId := match EntityId.parse? term with
    | some id => pool.filter (· = id)
    | none => []
  if byId ≠ [] then byId
  else
    let byPath := if term.toList.contains '/' then selectPath scene scope pool term else []
    if byPath ≠ [] then byPath else host.select scene pool fun entity => entity.name = term

/-- How messages name an entity. -/
def label (host : Host) (scene : Scene) (id : EntityId) : String :=
  match host.entity? scene id with
  | some entity => s!"{entity.name} (id {id})"
  | none => s!"id {id}"

/-- The entities a reference names. -/
def referents (host : Host) (scene : Scene) (includeInactive : Bool) (term : String) :
    List EntityId :=
  (host.selectLoosely scene none (scene.allEntities includeInactive) term).eraseDups

/-- The one entity a reference names. -/
def resolveUnique (host : Host) (scene : Scene) (includeInactive : Bool) (reference : String) :
    Except Report EntityId :=
  let term := Text.trim reference
  if term = "" then .error { error := .missing "entity reference" }
  else match host.referents scene includeInactive term with
    | [] => .error { error := .absent "entity" term }
    | [id] => .ok id
    | several =>
      let labels := several.map (host.label scene)
      let listed := String.intercalate ", " labels
      let text := s!"'{term}' matches {several.length} entities: {listed}. Use an id or a path"
      .error { error := .ambiguous text labels }

/-- The entities searched below a scope: the scope, then the children of each entity that a
depth-first walk from the scope visits. -/
def scopePool (scene : Scene) (includeInactive : Bool) (root : EntityId) : List EntityId :=
  let visited := Scene.walk (scene.children includeInactive) scene.entities.length root
  [root].filter (scene.isListed includeInactive) ++
    visited.flatMap (scene.children includeInactive)

/-- The entities a query searches. -/
def pool (scene : Scene) (includeInactive : Bool) : Option EntityId → List EntityId
  | none => scene.allEntities includeInactive
  | some root => scopePool scene includeInactive root

/-- The layer a term names or numbers. -/
def layer (scene : Scene) (term : String) : Except Report Nat :=
  match (Numeral.unsigned? (twoTo 32) term.toList).or (scene.layer? term) with
  | some index => .ok index
  | none => .error { error := .absent "layer" term }

/-- The entities of a pool that match a term. -/
def run (host : Host) (scene : Scene) (cache : TypeCache) (strategy : Strategy) (term : String)
    (scope : Option EntityId) (pool : List EntityId) : Attempt (List EntityId × TypeCache) :=
  match strategy with
  | .byId =>
    match EntityId.parse? term with
    | some id => return (pool.filter (· = id), cache)
    | none => fail (.invalid "entity id" s!"'{term}' is not an integer")
  | .byName => return (host.select scene pool fun entity => entity.name = term, cache)
  | .byTag => return (host.select scene pool fun entity => entity.tag = term, cache)
  | .byPath => return (selectPath scene scope pool term, cache)
  | .byLayer => do
    let index ← .ofExcept (layer scene term)
    return (host.select scene pool fun entity => entity.layer = index, cache)
  | .byComponent => do
    let (type, cache) ← cache.resolve host.env.catalog .capability term
    return (host.select scene pool fun entity => entity.hasCapability type.fullName, cache)
  | .byIdOrNameOrPath => return (host.selectLoosely scene scope pool term, cache)

/-- The entities that match a query, each once; no match is an empty list. -/
def find (host : Host) (scene : Scene) (cache : TypeCache) (query : Query) :
    Attempt (List EntityId × TypeCache) := do
  let term := Text.trim query.term
  if term = "" then fail (.missing "search term")
  else
    let scope ← .ofExcept (query.scope.mapM (host.resolveUnique scene query.includeInactive))
    let candidates := pool scene query.includeInactive scope
    let (matching, cache) ← host.run scene cache query.strategy term scope candidates
    let all := matching.eraseDups
    let found := if query.findAll then all else all.take 1
    .tell .debug .entities
      s!"{query.strategy.name} '{term}' matched {found.length} entit{Text.pluralY found.length}"
    return (found, cache)

/-- A query that nothing matches. -/
def noMatch (query : Query) : Error :=
  .notFound s!"no entity matches '{Text.trim query.term}' ({query.strategy.name})"

end Host
end SceneEdit
