import SceneEdit.Proofs.Number.Range
import SceneEdit.Types.Catalog

/-!
# Well-typed values

A value is well typed when it has the shape, the range and, for objects, the type name that its
declared type asks for, and when everything inside it is well typed for the types declared there.
The relation has a parameter: a property that all declared types inside the value have. What a slot
of a foreign type holds is left open, and so is what is inside it.
-/

namespace SceneEdit

namespace Table

variable {ν : Type}

/-- What an object holds, members and shader channels, each with its declared type. -/
def slots (table : Table ν) : List (ValueType × ν) :=
  table.members.map (fun member => (member.declared, member.value)) ++
    ((table.shader.map Shader.channels).getD []).map fun channel =>
      (channel.declared, channel.value)

end Table

namespace Value

/-- A value is well typed for a declared type, and all types declared inside it are permitted. -/
inductive Typed (permitted : ValueType → Prop) : Value → ValueType → Prop
  | bool (b : Bool) : Typed permitted (.bool b) .bool
  | int {i : Int} (low : -(twoTo 31 : Int) ≤ i) (high : i < twoTo 31) :
      Typed permitted (.int i) .int
  | long {i : Int} (low : -(twoTo 63 : Int) ≤ i) (high : i < twoTo 63) :
      Typed permitted (.int i) .long
  | float {x : Double} (finite : x.isFinite = true) (small : x.AtMost (Binary.largest .single)) :
      Typed permitted (.float x) .float
  | string (text : String) : Typed permitted (.string text) .string
  | enum {type : EnumType} {label : String} (declared : label ∈ type.variants) :
      Typed permitted (.enum label) (.enum type)
  | vector {v : Vec} {kind : VectorKind} (same : v.kind = kind)
      (finite : ∀ component ∈ v.components, component.isFinite = true) :
      Typed permitted (.vector v) (.vector kind)
  | noResource (name : TypeName) : Typed permitted .null (.resource name)
  | resource {handle : Resource} {name : TypeName} (same : handle.typeName = name) :
      Typed permitted (.resource handle) (.resource name)
  | list {items : List Value} {element : ValueType}
      (each : ∀ item ∈ items, Typed permitted item element) :
      Typed permitted (.list items) (.list element)
  | array {items : List Value} {element : ValueType} {length : Nat} (filled : items.length = length)
      (each : ∀ item ∈ items, Typed permitted item element) :
      Typed permitted (.list items) (.array element length)
  | struct {table : Object} {name : TypeName} (same : table.typeName = name)
      (permit : ∀ slot ∈ table.slots, permitted slot.1)
      (each : ∀ slot ∈ table.slots, Typed permitted slot.2 slot.1) :
      Typed permitted (.object table) (.struct name)
  | noReference (name : TypeName) : Typed permitted .null (.reference name)
  | reference {table : Object} {name : TypeName}
      (typed : Typed permitted (.object table) (.struct name)) :
      Typed permitted (.object table) (.reference name)
  | absent (inner : ValueType) : Typed permitted .null (.nullable inner)
  | present {value : Value} {inner : ValueType} (typed : Typed permitted value inner) :
      Typed permitted value (.nullable inner)
  | foreign (value : Value) (name : TypeName) : Typed permitted value (.foreign name)

end Value

/-- An object all of whose slots are well typed, with permitted types. -/
def Table.Typed (permitted : ValueType → Prop) (table : Object) : Prop :=
  ∀ slot ∈ table.slots, permitted slot.1 ∧ Value.Typed permitted slot.2 slot.1

/-- A catalog whose templates are well typed and have the names they are registered under. -/
def Catalog.Typed (permitted : ValueType → Prop) (catalog : Catalog) : Prop :=
  ∀ entry ∈ catalog.entries, ∀ template, entry.template = some template →
    template.typeName = entry.type.fullName ∧ template.Typed permitted

/-- Wherever the type has a fixed array, its elements have a value to fill it with. -/
def ValueType.Fillable : ValueType → Prop
  | .list element => element.Fillable
  | .array element _ => element.zero?.isSome = true ∧ element.Fillable
  | .nullable inner => inner.Fillable
  | _ => True

theorem ValueType.Fillable.element {type element : ValueType} (fillable : type.Fillable)
    (collection : type.element? = some element) : element.Fillable := by
  induction type with
  | list inner =>
      cases collection
      exact fillable
  | array inner length =>
      cases collection
      exact fillable.2
  | nullable inner ih => exact ih fillable collection
  | _ => cases collection

section

variable {permitted : ValueType → Prop}

theorem Value.typed_struct_iff {table : Object} {name : TypeName} :
    Typed permitted (.object table) (.struct name) ↔
      table.typeName = name ∧ table.Typed permitted := by
  constructor
  · intro typed
    cases typed with
    | struct same permit each =>
        exact ⟨same, fun slot member => ⟨permit slot member, each slot member⟩⟩
  · rintro ⟨same, typed⟩
    exact .struct same (fun slot member => (typed slot member).1)
      fun slot member => (typed slot member).2

/-! ### Slots -/

/-- What a list holds after a change at one place. -/
theorem mem_or_eq_of_mem_modify {α : Type} {items : List α} {index : Nat} {change : α → α} {x : α}
    (inside : x ∈ items.modify index change) :
    x ∈ items ∨ ∃ old, items[index]? = some old ∧ x = change old := by
  obtain ⟨place, found⟩ := List.mem_iff_getElem?.mp inside
  rw [List.getElem?_modify] at found
  obtain ⟨old, there, rfl⟩ := Option.map_eq_some_iff.mp found
  by_cases here : index = place
  · subst here
    exact Or.inr ⟨old, there, by simp⟩
  · rw [if_neg here]
    exact Or.inl (List.mem_of_getElem? there)

namespace Table

theorem slot_of_member {table : Object} {member : Member} (inside : member ∈ table.members) :
    (member.declared, member.value) ∈ table.slots :=
  List.mem_append_left _ (List.mem_map_of_mem inside)

theorem slot_of_channel {table : Object} {shader : Shader Value} {channel : Channel Value}
    (material : table.shader = some shader) (inside : channel ∈ shader.channels) :
    (channel.declared, channel.value) ∈ table.slots := by
  refine List.mem_append_right _ (List.mem_map_of_mem ?_)
  rw [material]
  exact inside

namespace Typed

variable {table : Object} (typed : table.Typed permitted)
include typed

theorem setMember {index : Nat} {member : Member} {value : Value}
    (there : table.members[index]? = some member)
    (fits : Value.Typed permitted value member.declared) :
    (table.setMember index value).Typed permitted := by
  intro slot inside
  rcases List.mem_append.mp inside with inMember | inChannel
  · obtain ⟨changed, among, rfl⟩ := List.mem_map.mp inMember
    rcases mem_or_eq_of_mem_modify among with old | ⟨before, place, rfl⟩
    · exact typed _ (slot_of_member old)
    · rw [there] at place
      cases place
      exact ⟨(typed _ (slot_of_member (List.mem_of_getElem? there))).1, fits⟩
  · exact typed slot (List.mem_append_right _ inChannel)

theorem setChannel {shader : Shader Value} {index : Nat} {channel : Channel Value} {value : Value}
    (material : table.shader = some shader) (there : shader.channels[index]? = some channel)
    (fits : Value.Typed permitted value channel.declared) :
    (table.setChannel index value).Typed permitted := by
  intro slot inside
  rcases List.mem_append.mp inside with inMember | inChannel
  · exact typed slot (List.mem_append_left _ inMember)
  · obtain ⟨changed, among, rfl⟩ := List.mem_map.mp inChannel
    simp only [Table.setChannel, material, Option.map_some, Option.getD_some] at among
    rcases mem_or_eq_of_mem_modify among with old | ⟨before, place, rfl⟩
    · exact typed _ (slot_of_channel material old)
    · rw [there] at place
      cases place
      exact ⟨(typed _ (slot_of_channel material (List.mem_of_getElem? there))).1, fits⟩

end Typed
end Table

/-! ### Values that are given for nothing -/

theorem Value.typed_null {type : ValueType} (accepts : type.acceptsAbsence = true) :
    Typed permitted .null type := by
  cases type <;> cases accepts <;> constructor

theorem Vec.zero_spec (kind : VectorKind) :
    (Vec.zero kind).kind = kind ∧
      ∀ component ∈ (Vec.zero kind).components, component.isFinite = true := by
  cases kind <;> decide +kernel

/-- The value closest to nothing is well typed where fixed arrays can be filled. -/
theorem ValueType.typed_of_zero? {type : ValueType} (fillable : type.Fillable) {value : Value}
    (zero : type.zero? = some value) : value.Typed permitted type := by
  induction type generalizing value with
  | bool | string =>
      cases zero
      constructor
  | int | long =>
      cases zero
      constructor <;> decide
  | float =>
      cases zero
      exact .float (by decide +kernel) (by unfold Binary.AtMost; decide +kernel)
  | enum type =>
      obtain ⟨label, first, rfl⟩ := Option.map_eq_some_iff.mp zero
      exact .enum (List.mem_of_mem_head? first)
  | vector kind =>
      cases zero
      exact .vector (Vec.zero_spec kind).1 (Vec.zero_spec kind).2
  | list element =>
      cases zero
      exact .list (by simp)
  | array element length ih =>
      obtain ⟨filler, found⟩ := Option.isSome_iff_exists.mp fillable.1
      simp only [ValueType.zero?, found, Option.getD_some, Option.some.injEq] at zero
      subst zero
      refine .array List.length_replicate fun item inside => ?_
      rw [List.eq_of_mem_replicate inside]
      exact ih fillable.2 found
  | resource name | reference name | nullable inner | foreign name =>
      cases zero
      constructor
  | struct name => cases zero

/-- The default state of a type is well typed and has the type's name. -/
theorem Catalog.Typed.instantiate? {catalog : Catalog} (typed : catalog.Typed permitted)
    {name : TypeName} {table : Object} (given : catalog.instantiate? name = some table) :
    table.typeName = name ∧ table.Typed permitted := by
  obtain ⟨entry, first, template⟩ := Option.bind_eq_some_iff.mp given
  obtain ⟨same, fits⟩ := typed entry (List.mem_of_find?_eq_some first) table template
  have named : entry.type.fullName = name := by simpa using List.find?_some first
  exact ⟨same.trans named, fits⟩

end
end SceneEdit
