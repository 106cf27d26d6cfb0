import SceneEdit.Proofs.Coercion.Repetition
import SceneEdit.Proofs.Value.Typing

/-!
# Types that conversions meet

The members of an object are declared with types, and so are the members of the objects inside it.
A conversion starts from what the slot holds or from the default states of the catalog, and it
changes what members hold but never how they are declared. So however it nests, it meets no types
but those: whatever it gives has only types declared inside it that the catalog's defaults or the
slot's value had before (`declarations_coerce`).
-/

namespace SceneEdit

namespace Value

mutual

/-- The types that are declared inside a value. -/
def declarations : Value → List ValueType
  | list items => itemDeclarations items
  | object ⟨_, members, _⟩ => memberDeclarations members
  | _ => []

def itemDeclarations : List Value → List ValueType
  | [] => []
  | item :: rest => item.declarations ++ itemDeclarations rest

def memberDeclarations : List (Slot Value) → List ValueType
  | [] => []
  | ⟨_, _, declared, _, value⟩ :: rest =>
    declared :: (value.declarations ++ memberDeclarations rest)

end

theorem mem_declarations_list {items : List Value} {type : ValueType} :
    type ∈ (list items).declarations ↔ ∃ item ∈ items, type ∈ item.declarations := by
  rw [declarations]
  induction items with
  | nil => simp [itemDeclarations]
  | cons item rest ih => simp [itemDeclarations, ih]

theorem mem_declarations_object {table : Object} {type : ValueType} :
    type ∈ (object table).declarations ↔
      ∃ member ∈ table.members, type = member.declared ∨ type ∈ member.value.declarations := by
  obtain ⟨typeName, members, shader⟩ := table
  rw [declarations]
  induction members with
  | nil => simp [memberDeclarations]
  | cons member rest ih =>
      obtain ⟨name, kind, declared, writable, value⟩ := member
      simp [memberDeclarations, ih, or_assoc]

/-- The types that are declared inside what a slot holds. -/
def held (current : Option Value) : List ValueType := (current.map declarations).getD []

end Value

/-- The types that are declared inside the default states of a catalog. -/
def Catalog.declarations (catalog : Catalog) : List ValueType :=
  catalog.entries.flatMap fun entry => Value.held (entry.template.map .object)

open Value (held)

theorem Catalog.declarations_instantiate? {catalog : Catalog} {name : TypeName} {table : Object}
    (given : catalog.instantiate? name = some table) :
    (Value.object table).declarations ⊆ catalog.declarations := by
  obtain ⟨entry, found, template⟩ := Option.bind_eq_some_iff.mp given
  intro type inside
  refine List.mem_flatMap.mpr ⟨entry, List.mem_of_find?_eq_some found, ?_⟩
  rw [template]
  exact inside

namespace Coercion

variable {env : Environment} {field : String} {token : Token} {target : ValueType}
variable {current : Option Value} {types : List ValueType}

/-! ### Objects and lists -/

/-- The type of a member and the types inside what it holds. -/
theorem declarations_member {table : Object} {index : Nat} {member : Member}
    (before : (Value.object table).declarations ⊆ types)
    (there : table.members[index]? = some member) :
    member.declared ∈ types ∧ held (some member.value) ⊆ types := by
  have inside := List.mem_of_getElem? there
  constructor
  · exact before (Value.mem_declarations_object.mpr ⟨member, inside, Or.inl rfl⟩)
  · exact fun type inner =>
      before (Value.mem_declarations_object.mpr ⟨member, inside, Or.inr inner⟩)

theorem declarations_setMember {table : Object} {index : Nat} {value : Value}
    (before : (Value.object table).declarations ⊆ types) (new : value.declarations ⊆ types) :
    (Value.object (table.setMember index value)).declarations ⊆ types := by
  intro type inside
  obtain ⟨member, there, declared⟩ := Value.mem_declarations_object.mp inside
  obtain old | ⟨old, was, rfl⟩ := mem_or_eq_of_mem_modify there
  · exact before (Value.mem_declarations_object.mpr ⟨member, old, declared⟩)
  · obtain same | inner := declared
    · exact before (Value.mem_declarations_object.mpr ⟨old, List.mem_of_getElem? was, Or.inl same⟩)
    · exact new inner

theorem declarations_currentItems {place : Nat} (kept : held current ⊆ types) :
    held (currentItems current)[place]? ⊆ types := by
  intro type inside
  cases given : (currentItems current)[place]? with
  | none =>
      rw [given] at inside
      cases inside
  | some item =>
      rw [given] at inside
      unfold currentItems at given
      split at given
      · exact kept (Value.mem_declarations_list.mpr ⟨item, List.mem_of_getElem? given, inside⟩)
      · cases given

theorem declarations_baseObject {name : TypeName} {base : Object}
    (catalog : env.catalog.declarations ⊆ types) (kept : held current ⊆ types)
    (start : (baseObject env field target name current).value? = some base) :
    (Value.object base).declarations ⊆ types := by
  rw [baseObject] at start
  split at start
  · rename_i table given
    cases start
    obtain ⟨value, rfl, object⟩ := Option.bind_eq_some_iff.mp (Option.filter_eq_some_iff.mp given).1
    cases value with
    | object table =>
        cases object
        exact kept
    | _ => cases object
  · split at start
    · rename_i given
      cases start
      exact fun type inside => catalog (Catalog.declarations_instantiate? given inside)
    · cases start

/-! ### Values without objects -/

theorem declarations_zero? {value : Value} (zero : target.zero? = some value) :
    value.declarations = [] := by
  induction target generalizing value with
  | array element length ih =>
      cases zero
      have nothing : (element.zero?.getD .null).declarations = [] := by
        cases given : element.zero? with
        | none => rfl
        | some value => exact ih given
      refine List.eq_nil_iff_forall_not_mem.mpr fun type inside => ?_
      obtain ⟨item, member, inner⟩ := Value.mem_declarations_list.mp inside
      rw [List.eq_of_mem_replicate member, nothing] at inner
      cases inner
  | enum type =>
      obtain ⟨label, -, rfl⟩ := Option.map_eq_some_iff.mp zero
      rfl
  | struct => cases zero
  | _ =>
      cases zero
      rfl

theorem declarations_absent (catalog : env.catalog.declarations ⊆ types) :
    (absent env field target).Gives fun value => value.declarations ⊆ types := by
  unfold absent
  split
  · exact .pure (List.nil_subset _)
  · split
    · rename_i value zero
      refine .pure ?_
      rw [declarations_zero? zero]
      exact List.nil_subset _
    · split
      · split
        · rename_i given
          exact .pure fun type inside => catalog (Catalog.declarations_instantiate? given inside)
        · exact .throw _
      · exact .throw _

theorem declarations_forField {α : Type} {x : Except String α} {make : α → Value}
    (plain : ∀ a, (make a).declarations = []) :
    (forField field target (x.map make)).Gives fun value => value.declarations ⊆ types := by
  refine .ofExcept fun value given => ?_
  obtain ⟨a, -, rfl⟩ := map_eq_ok_iff.mp (mapError_eq_ok_iff.mp given)
  rw [plain a]
  exact List.nil_subset _

theorem declarations_toResource (library : Library) (field : String) (token : Token)
    (name : TypeName) :
    (toResource library field token name).Gives fun value => value.declarations ⊆ types := by
  unfold toResource
  split
  · exact .throw _
  · dsimp only
    split
    · exact .pure (List.nil_subset _)
    · unfold findAsset
      split
      · exact (Traced.Gives.any _).bind fun _ _ => .pure (List.nil_subset _)
      · split
        · exact .pure (List.nil_subset _)
        · exact (Traced.Gives.any _).bind fun _ _ => .pure (List.nil_subset _)
        · exact (Traced.Gives.any _).bind fun _ _ => .pure (List.nil_subset _)

/-! ### Conversions -/

section

variable (catalog : env.catalog.declarations ⊆ types) (kept : held current ⊆ types)
variable (filled : ¬ token.isNull = true)
variable (lighter : ∀ {inner type current}, inner.weight < token.weight → held current ⊆ types →
  ∀ field, (coerce env field inner type current).Gives fun value => value.declarations ⊆ types)

include lighter in
theorem declarations_coerceItems {items : List Token} {element : ValueType}
    {existing : List Value} {index : Nat} (inside : ∀ item ∈ items, item.weight < token.weight)
    (before : (Value.list existing).declarations ⊆ types) :
    (coerceItems env field index items element existing).Gives fun values =>
      (Value.list values).declarations ⊆ types := by
  induction items generalizing index existing with
  | nil =>
      rw [coerceItems]
      exact .pure (List.nil_subset _)
  | cons item rest ih =>
      have first : held existing.head? ⊆ types := by
        cases existing with
        | nil => exact List.nil_subset _
        | cons value more => exact (List.append_subset.mp before).1
      have others : (Value.list existing.tail).declarations ⊆ types := by
        cases existing with
        | nil => exact List.nil_subset _
        | cons value more => exact (List.append_subset.mp before).2
      rw [coerceItems]
      refine (lighter (inside item List.mem_cons_self) first _).bind fun value new => ?_
      refine (ih (fun item member => inside item (List.mem_cons_of_mem _ member)) others).bind
        fun values more => .pure ?_
      exact List.append_subset.mpr ⟨new, more⟩

include lighter in
theorem declarations_foldlM_mergeEntry {base merged : Object} {entries : Entries}
    (inside : ∀ entry ∈ entries, entry.2.weight < token.weight)
    (before : (Value.object base).declarations ⊆ types)
    (done : entries.foldlM (mergeEntry env) base = some merged) :
    (Value.object merged).declarations ⊆ types := by
  induction entries generalizing base with
  | nil =>
      cases done
      exact before
  | cons entry rest ih =>
      rw [List.foldlM_cons] at done
      obtain ⟨next, first, more⟩ := Option.bind_eq_some_iff.mp done
      obtain ⟨index, member, value, -, there, -, converted, rfl⟩ :=
        (mergeEntry_eq_some_iff entry.1).mp first
      have new := lighter (inside entry List.mem_cons_self) (declarations_member before there).2
        entry.1 value converted
      exact ih (fun entry member => inside entry (List.mem_cons_of_mem _ member))
        (declarations_setMember before new) more

include kept filled lighter in
theorem declarations_collection {element : ValueType}
    (collection : target = .list element ∨ ∃ length, target = .array element length) :
    (coerce env field token target current).Gives fun value => value.declarations ⊆ types := by
  intro value given
  have converted := Traced.value?_eq_some_iff.mpr given
  obtain ⟨items, document, counted⟩ := exists_items_of_coerce filled collection converted
  rw [coerce_collection env field counted document] at converted
  obtain ⟨values, done, rfl⟩ := Option.map_eq_some_iff.mp converted
  refine declarations_coerceItems lighter (fun item => Token.weight_lt_of_item document) ?_ values
    (Traced.value?_eq_some_iff.mp done)
  unfold currentItems
  split
  · exact kept
  · exact List.nil_subset _

include catalog kept filled lighter in
theorem declarations_nested {name : TypeName}
    (nested : target = .struct name ∨ target = .reference name) :
    (coerce env field token target current).Gives fun value => value.declarations ⊆ types := by
  intro value given
  have converted := Traced.value?_eq_some_iff.mpr given
  obtain ⟨entries, document⟩ := exists_entries_of_coerce filled nested converted
  rw [coerce_nested env field nested document] at converted
  obtain ⟨base, start, folded⟩ := Option.bind_eq_some_iff.mp converted
  obtain ⟨merged, done, rfl⟩ := Option.map_eq_some_iff.mp folded
  exact declarations_foldlM_mergeEntry lighter (fun entry => Token.weight_lt_of_entry document)
    (declarations_baseObject catalog kept start) done

end

/-- Whatever a conversion gives has only types declared inside it that the defaults of the catalog
or the value of the slot had. -/
theorem declarations_coerce {env : Environment} {token : Token} {target : ValueType}
    {current : Option Value} {types : List ValueType} (catalog : env.catalog.declarations ⊆ types)
    (kept : held current ⊆ types) (field : String) :
    (coerce env field token target current).Gives fun value => value.declarations ⊆ types := by
  have lighter : ∀ {inner type current}, inner.weight < token.weight → held current ⊆ types →
      ∀ field, (coerce env field inner type current).Gives
        fun value => value.declarations ⊆ types :=
    fun smaller kept field => declarations_coerce catalog kept field
  by_cases null : token.isNull = true
  · rw [coerce_null null]
    exact declarations_absent catalog
  induction target with
  | list element _ => exact declarations_collection kept null lighter (Or.inl rfl)
  | array element length _ =>
      exact declarations_collection kept null lighter (Or.inr ⟨length, rfl⟩)
  | struct name => exact declarations_nested catalog kept null lighter (Or.inl rfl)
  | reference name => exact declarations_nested catalog kept null lighter (Or.inr rfl)
  | nullable inner ih =>
      rw [coerce_nullable null]
      exact ih
  | resource name =>
      rw [coerce, if_neg null]
      exact declarations_toResource _ _ _ _
  | foreign name =>
      rw [coerce, if_neg null]
      exact .throw _
  | _ =>
      rw [coerce, if_neg null]
      exact declarations_forField fun _ => rfl
termination_by token.weight
decreasing_by exact smaller

end Coercion
end SceneEdit
