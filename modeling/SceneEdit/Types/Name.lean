import SceneEdit.Text.Blank

/-!
# Type names and descriptors

A type name is a text whose dots separate namespaces; its short name is the part after the last
dot. A descriptor adds the module that owns the type and the category it belongs to.
-/

namespace SceneEdit

/-- A type name, with or without namespaces. -/
structure TypeName where
  text : String
  deriving DecidableEq, Repr

namespace TypeName

/-- The part after the last dot. -/
def short (name : TypeName) : String :=
  String.ofList (name.text.toList.reverse.takeWhile (· ≠ '.')).reverse

/-- The part before the last dot, if there is a dot. -/
def qualifier? (name : TypeName) : Option String :=
  match name.text.toList.reverse.dropWhile (· ≠ '.') with
  | [] => none
  | _ :: rest => some (String.ofList rest.reverse)

def isQualified (name : TypeName) : Bool := name.text.toList.contains '.'

end TypeName

/-- What a type is for. -/
inductive Category where
  /-- Types that attach to entities. -/
  | capability
  /-- Types of managed assets. -/
  | resource
  /-- Plain nested values. -/
  | value
  /-- Every type, as a requirement. -/
  | any
  deriving DecidableEq, Repr

namespace Category

def name : Category → String
  | capability => "capability"
  | resource => "resource"
  | value => "value"
  | any => "any"

/-- The category with a name, spelled exactly. -/
def parse? (text : String) : Option Category :=
  [capability, resource, value, any].find? fun category => category.name = text

/-- Whether a type of this category may stand where one of `required` is asked for. -/
def satisfies (category required : Category) : Bool := required = any || category = required

end Category

/-- The two sets of modules: the application's own, and the rest. -/
inductive Origin where
  | preferred
  | secondary
  deriving DecidableEq, Repr

def Origin.name : Origin → String
  | preferred => "Preferred"
  | secondary => "Secondary"

/-- The identity of a type. -/
structure Descriptor where
  fullName : TypeName
  owner : String
  category : Category
  deriving DecidableEq, Repr

namespace Descriptor

def short (type : Descriptor) : String := type.fullName.short

/-- The full name with the owning module, as ambiguity listings show it. -/
def label (type : Descriptor) : String := s!"{type.fullName.text} ({type.owner})"

end Descriptor
end SceneEdit
