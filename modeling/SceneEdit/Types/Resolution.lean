import SceneEdit.Log
import SceneEdit.Suggestion
import SceneEdit.Types.Cache
import SceneEdit.Types.Catalog

/-!
# Resolving type names

A name is looked up among the remembered types, then as the full name of a catalog type, and then
among all full and short names of the category. In that last search preferred modules shadow the
secondary ones, and a name that fits several types of the set that has it is ambiguous: no type is
ever picked among several, and nothing is remembered for the name.
-/

namespace SceneEdit

namespace Catalog

/-- The types of a category that a name may mean, each once. -/
def candidates (catalog : Catalog) (category : Category) (name : String) : List Descriptor :=
  let named := (catalog.typesIn category).filter fun type =>
    type.fullName.text = name || (!name.toList.contains '.' && type.short = name)
  named.eraseDupsBy fun a b => a.fullName = b.fullName && a.owner = b.owner

/-- The candidates in preferred modules if there are any, else those in secondary ones. -/
def shadowed (catalog : Catalog) (types : List Descriptor) : Origin × List Descriptor :=
  let preferred := types.filter fun type => catalog.originOf type.owner = .preferred
  if preferred.isEmpty then
    (.secondary, types.filter fun type => catalog.originOf type.owner ≠ .preferred)
  else (.preferred, preferred)

/-- No type of the category has the name. -/
def unknownType (catalog : Catalog) (category : Category) (name : String) : Error :=
  let known := (catalog.typesIn category).map Descriptor.short
  .notFound (Suggestion.withSuggestions s!"type '{name}' ({category.name}) not found"
    (Suggestion.closest name known))

/-- The name fits several types. -/
def ambiguousType (name : String) (types : List Descriptor) : Error :=
  let labels := types.map Descriptor.label
  let listed := String.intercalate ", " labels
  .ambiguous
    s!"type name '{name}' matches {types.length} types: {listed}. Use a fully-qualified name"
    labels

end Catalog

namespace TypeCache

/-- A type found among the remembered ones. -/
def remembered? (cache : TypeCache) (category : Category) (name : String) :
    Option (Descriptor × String) :=
  match cache.byFullName.get? category name with
  | some type => some (type, "full name")
  | none =>
    if name.toList.contains '.' then none
    else (cache.byShortName.get? category name).map fun type => (type, "short name")

/-- A type found by searching all names of the category. -/
def scan (cache : TypeCache) (catalog : Catalog) (category : Category) (name : String) :
    Attempt (Descriptor × TypeCache) := do
  let (origin, types) := catalog.shadowed (catalog.candidates category name)
  match types with
  | [] => fail (catalog.unknownType category name)
  | [type] =>
    .tell .debug .types
      s!"type '{name}' resolved by scan to {type.fullName.text} ({origin.name} modules)"
    return (type, cache.remember category type)
  | several =>
    .tell .warn .types
      s!"type name '{name}' is ambiguous across {several.length} {origin.name} types"
    fail (Catalog.ambiguousType name several)

/-- The type a name means in a category, and the cache that remembers it. A failure remembers
nothing. -/
def resolve (cache : TypeCache) (catalog : Catalog) (category : Category) (text : String) :
    Attempt (Descriptor × TypeCache) := do
  let name := Text.trim text
  if name = "" then fail (.missing "type name")
  else match cache.remembered? category name with
    | some (type, key) =>
      .tell .debug .types s!"type '{name}' resolved from cache ({key})"
      return (type, cache)
    | none =>
      match (catalog.lookup? name).filter fun type => type.category.satisfies category with
      | some type =>
        .tell .debug .types s!"type '{name}' resolved by direct lookup"
        return (type, cache.remember category type)
      | none => cache.scan catalog category name

end TypeCache
end SceneEdit
