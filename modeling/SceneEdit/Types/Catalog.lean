import SceneEdit.Value.Basic

/-!
# The catalog of types

The types a scene knows, in the order they were registered, with the default state of those that
have one, and the modules that own them.
-/

namespace SceneEdit

/-- A registered type and its default state. -/
structure CatalogEntry where
  type : Descriptor
  template : Option Object

/-- Modules and types in order of registration. -/
structure Catalog where
  modules : List (String × Origin) := []
  entries : List CatalogEntry := []

namespace Catalog

/-- The first type with this full name. -/
def lookup? (catalog : Catalog) (fullName : String) : Option Descriptor :=
  (catalog.entries.find? fun entry => entry.type.fullName.text = fullName).map (·.type)

/-- The types that satisfy a category, in order. -/
def typesIn (catalog : Catalog) (required : Category) : List Descriptor :=
  (catalog.entries.filter fun entry => entry.type.category.satisfies required).map (·.type)

/-- The set a module belongs to; unknown modules are secondary. -/
def originOf (catalog : Catalog) (owner : String) : Origin :=
  match catalog.modules.find? fun entry => entry.1 = owner with
  | some (_, origin) => origin
  | none => .secondary

/-- The default state of the first type with this full name. -/
def instantiate? (catalog : Catalog) (name : TypeName) : Option Object :=
  (catalog.entries.find? fun entry => entry.type.fullName = name).bind (·.template)

end Catalog

/-- The managed assets, in order of registration. -/
structure Library where
  resources : List Resource := []

namespace Library

/-- The asset of a type at a path. -/
def load? (library : Library) (path : String) (type : TypeName) : Option Resource :=
  library.resources.find? fun r => r.path = path && r.typeName = type

/-- The assets of a type with a name. -/
def named (library : Library) (type : TypeName) (name : String) : List Resource :=
  library.resources.filter fun r => r.typeName = type && r.name = name

end Library

/-- What conversions look things up in. -/
structure Environment where
  catalog : Catalog := {}
  library : Library := {}

end SceneEdit
