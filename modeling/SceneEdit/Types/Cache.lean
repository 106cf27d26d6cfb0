import SceneEdit.Types.Name

/-!
# Remembered types

A session remembers each type it has resolved, under its full and under its short name, for the
category it was resolved for. What is remembered first stays, whatever is resolved later.
-/

namespace SceneEdit

/-- Types by category and name. -/
abbrev TypeIndex := List ((Category × String) × Descriptor)

namespace TypeIndex

def get? (index : TypeIndex) (category : Category) (name : String) : Option Descriptor :=
  (index.find? fun entry => entry.1 = (category, name)).map Prod.snd

/-- The index with a type under a name, unless the name is taken. -/
def insertNew (index : TypeIndex) (category : Category) (name : String) (type : Descriptor) :
    TypeIndex :=
  if (index.get? category name).isSome then index else index ++ [((category, name), type)]

end TypeIndex

/-- The types resolved so far. -/
structure TypeCache where
  byFullName : TypeIndex := []
  byShortName : TypeIndex := []

namespace TypeCache

/-- The cache with a type remembered under both its names. -/
def remember (cache : TypeCache) (category : Category) (type : Descriptor) : TypeCache where
  byFullName := cache.byFullName.insertNew category type.fullName.text type
  byShortName := cache.byShortName.insertNew category type.short type

/-- Whether a name is remembered, as a full or as a short one. -/
def contains (cache : TypeCache) (category : Category) (name : String) : Bool :=
  (cache.byFullName.get? category name).isSome || (cache.byShortName.get? category name).isSome

/-- The number of full names remembered. -/
def size (cache : TypeCache) : Nat := cache.byFullName.length

end TypeCache
end SceneEdit
