import SceneEdit.Value.Basic

/-!
# Locations inside a value

A location is a sequence of steps from a value to one inside it: to a member or a shader channel of
an object by its place in the table, or to an item of a list. `at?` follows a location and `put`
puts another value where it leads.

The laws are those of a place that can be read and written: what is put is what is found, putting
what is there changes nothing, the last value that is put counts, and locations that lead apart do
not disturb each other. They are proved for one step and carried along locations by induction.
-/

namespace SceneEdit

/-- A step from a value to one inside it. -/
inductive Place where
  | member (index : Nat)
  | channel (index : Nat)
  | item (index : Nat)
  deriving DecidableEq, Repr

/-- The steps that lead to a slot. -/
abbrev Location := List Place

/-- Neither location leads to or through where the other one leads. -/
def Location.Apart (first second : Location) : Prop := ¬ first <+: second ∧ ¬ second <+: first

theorem Location.Apart.ne_nil {first second : Location} (apart : first.Apart second) :
    first ≠ [] := by
  rintro rfl
  exact apart.1 List.nil_prefix

theorem Location.apart_cons_iff {place : Place} {first second : Location} :
    Location.Apart (place :: first) (place :: second) ↔ Location.Apart first second := by
  simp only [Location.Apart, List.cons_prefix_cons, true_and]

/-- What a slot is declared with. -/
structure Declaration where
  type : ValueType
  writable : Bool
  deriving DecidableEq, Repr

namespace Value

/-- What one step leads to. -/
def child? : Value → Place → Option Value
  | object table, .member i => (table.members[i]?).map Slot.value
  | object table, .channel i => table.shader.bind fun shader =>
    (shader.channels[i]?).map Channel.value
  | list items, .item i => items[i]?
  | _, _ => none

/-- The value with another one where a step leads. -/
def setChild : Value → Place → Value → Value
  | object table, .member i, new => object (table.setMember i new)
  | object table, .channel i, new => object (table.setChannel i new)
  | list items, .item i, new => list (items.modify i fun _ => new)
  | value, _, _ => value

/-- What a location leads to. -/
def at? : Value → Location → Option Value
  | value, [] => some value
  | value, place :: rest => (value.child? place).bind fun inner => inner.at? rest

/-- The value with another one where a location leads; one that leads nowhere changes nothing. -/
def put : Value → Location → Value → Value
  | _, [], new => new
  | value, place :: rest, new =>
    match value.child? place with
    | some inner => value.setChild place (inner.put rest new)
    | none => value

/-- How the slot that a step leads to is declared; `own` is how the value itself is. Members and
channels have their own declaration, and items the one that a collection gives them. -/
def declaration? (own : Option Declaration) : Value → Place → Option Declaration
  | object table, .member i =>
    (table.members[i]?).map fun member => ⟨member.declared, member.writable⟩
  | object table, .channel i => table.shader.bind fun shader =>
    (shader.channels[i]?).map fun channel => ⟨channel.declared, true⟩
  | list _, .item _ => own.bind fun declaration =>
    declaration.type.element?.map fun element => ⟨element, declaration.writable⟩
  | _, _ => none

/-- How the slot that a location leads to is declared. -/
def declarationAt? (own : Option Declaration) : Value → Location → Option Declaration
  | _, [] => own
  | value, place :: rest => (value.child? place).bind fun inner =>
    inner.declarationAt? (value.declaration? own place) rest

/-! ### One step -/

section

variable {value old : Value} {place : Place}

theorem child?_setChild_self (found : value.child? place = some old) (new : Value) :
    (value.setChild place new).child? place = some new := by
  unfold child? at found
  split at found
  · obtain ⟨member, there, -⟩ := Option.map_eq_some_iff.mp found
    simp [setChild, child?, Table.setMember, there]
  · obtain ⟨shader, material, more⟩ := Option.bind_eq_some_iff.mp found
    obtain ⟨channel, there, -⟩ := Option.map_eq_some_iff.mp more
    simp [setChild, child?, Table.setChannel, material, there]
  · simp [setChild, child?, found]
  · cases found

theorem child?_setChild_of_ne {other : Place} (different : place ≠ other) (value new : Value) :
    (value.setChild place new).child? other = value.child? other := by
  unfold setChild
  split
  · rename_i table i
    cases other with
    | member j =>
        have apart : i ≠ j := fun same => different (congrArg Place.member same)
        simp [child?, Table.setMember, apart]
    | channel j => rfl
    | item j => rfl
  · rename_i table i
    cases other with
    | member j => rfl
    | channel j =>
        have apart : i ≠ j := fun same => different (congrArg Place.channel same)
        cases material : table.shader <;> simp [child?, Table.setChannel, material, apart]
    | item j => rfl
  · rename_i items i
    cases other with
    | member j => rfl
    | channel j => rfl
    | item j =>
        have apart : i ≠ j := fun same => different (congrArg Place.item same)
        simp [child?, apart]
  · rfl

theorem setChild_setChild (value first second : Value) (place : Place) :
    (value.setChild place first).setChild place second = value.setChild place second := by
  cases value <;> cases place <;> try rfl
  case list.item items i => simp [setChild, List.modify_modify_eq, Function.comp_def]
  case object.member table i =>
    simp [setChild, Table.setMember, List.modify_modify_eq, Function.comp_def]
  case object.channel table i =>
    simp [setChild, Table.setChannel, List.modify_modify_eq, Function.comp_def]

theorem modify_comm {α : Type} {first second : Nat} (different : first ≠ second)
    (change change' : α → α) (items : List α) :
    (items.modify first change).modify second change' =
      (items.modify second change').modify first change := by
  apply List.ext_getElem?
  intro place
  simp only [List.getElem?_modify]
  by_cases here : first = place
  · simp [here, here ▸ different.symm]
  · simp [here]

/-- Steps to different places do not disturb each other. -/
theorem setChild_comm {first second : Place} (different : first ≠ second) (value a b : Value) :
    (value.setChild first a).setChild second b = (value.setChild second b).setChild first a := by
  cases value with
  | list items =>
      cases first with
      | item i =>
          cases second with
          | item j =>
              have apart : i ≠ j := fun same => different (congrArg Place.item same)
              simp [setChild, modify_comm apart]
          | _ => rfl
      | _ => cases second <;> rfl
  | object table =>
      cases first with
      | item i => cases second <;> rfl
      | member i =>
          cases second with
          | member j =>
              have apart : i ≠ j := fun same => different (congrArg Place.member same)
              simp [setChild, Table.setMember, modify_comm apart]
          | _ => rfl
      | channel i =>
          cases second with
          | channel j =>
              have apart : i ≠ j := fun same => different (congrArg Place.channel same)
              cases material : table.shader <;>
                simp [setChild, Table.setChannel, material, modify_comm apart]
          | _ => rfl
  | _ => cases first <;> cases second <;> rfl

/-- Declarations are not part of what a slot holds. -/
theorem declaration?_setChild (own : Option Declaration) (value new : Value)
    (place other : Place) :
    (value.setChild place new).declaration? own other = value.declaration? own other := by
  cases value with
  | list items => cases place <;> cases other <;> rfl
  | object table =>
      cases place with
      | item i => rfl
      | member i =>
          cases other with
          | member j =>
              by_cases here : i = j <;>
                simp [setChild, Table.setMember, declaration?, here, Function.comp_def]
          | _ => rfl
      | channel i =>
          cases other with
          | channel j =>
              by_cases here : i = j <;> cases material : table.shader <;>
                simp [setChild, Table.setChannel, declaration?, material, here, Function.comp_def]
          | _ => rfl
  | _ => cases place <;> rfl

/-- A change at one place of a list that leaves the item there as it is. -/
theorem modify_eq_self {α : Type} {items : List α} {index : Nat} {change : α → α}
    (same : ∀ item, items[index]? = some item → change item = item) :
    items.modify index change = items := by
  apply List.ext_getElem?
  intro place
  rw [List.getElem?_modify]
  by_cases here : index = place
  · subst here
    cases there : items[index]? with
    | none => rfl
    | some item => simp [same item there]
  · simp [here]

theorem setChild_eq_self (found : value.child? place = some old) :
    value.setChild place old = value := by
  unfold child? at found
  split at found
  · obtain ⟨member, there, rfl⟩ := Option.map_eq_some_iff.mp found
    have same : ∀ other, _ = some other → ({ other with value := member.value } : Member) = other :=
      fun other here => by cases there.symm.trans here; rfl
    simp [setChild, Table.setMember, modify_eq_self same]
  · obtain ⟨shader, material, more⟩ := Option.bind_eq_some_iff.mp found
    obtain ⟨channel, there, rfl⟩ := Option.map_eq_some_iff.mp more
    have same : ∀ other, shader.channels[_]? = some other →
        ({ other with value := channel.value } : Channel Value) = other :=
      fun other here => by cases there.symm.trans here; rfl
    rename_i table _
    simp only [setChild, Table.setChannel, material, Option.map_some, modify_eq_self same]
    rw [← material]
  · have same : ∀ other, _ = some other → old = other :=
      fun other here => Option.some.inj (found.symm.trans here)
    simp [setChild, modify_eq_self same]
  · cases found

end

/-! ### Locations -/

section

variable {value old inner : Value} {location : Location}

theorem at?_append (value : Value) (first second : Location) :
    value.at? (first ++ second) = (value.at? first).bind fun inner => inner.at? second := by
  induction first generalizing value with
  | nil => rfl
  | cons place rest ih =>
      simp only [List.cons_append, at?]
      cases value.child? place with
      | none => rfl
      | some inner => exact ih inner

theorem declarationAt?_append (own : Option Declaration) (first second : Location)
    (found : value.at? first = some inner) :
    value.declarationAt? own (first ++ second) =
      inner.declarationAt? (value.declarationAt? own first) second := by
  induction first generalizing value own with
  | nil =>
      cases found
      rfl
  | cons place rest ih =>
      obtain ⟨next, step, more⟩ := Option.bind_eq_some_iff.mp found
      simp only [List.cons_append, declarationAt?, step, Option.bind_some]
      exact ih _ more

theorem put_append (found : value.at? location = some inner) (rest : Location) (new : Value) :
    value.put (location ++ rest) new = value.put location (inner.put rest new) := by
  induction location generalizing value with
  | nil =>
      cases found
      rfl
  | cons place _ ih =>
      obtain ⟨next, step, more⟩ := Option.bind_eq_some_iff.mp found
      simp only [List.cons_append, put, step, ih more]

/-- What is put is what is found. -/
theorem at?_put_self (found : value.at? location = some old) (new : Value) :
    (value.put location new).at? location = some new := by
  induction location generalizing value with
  | nil => rfl
  | cons place rest ih =>
      obtain ⟨next, step, more⟩ := Option.bind_eq_some_iff.mp found
      simp only [put, step, at?, child?_setChild_self step, Option.bind_some]
      exact ih more

/-- What is put further down is put into what is found on the way. -/
theorem at?_put_append (found : value.at? location = some inner) (rest : Location) (new : Value) :
    (value.put (location ++ rest) new).at? location = some (inner.put rest new) := by
  rw [put_append found]
  exact at?_put_self found _

/-- The last value that is put counts. -/
theorem put_put (value : Value) (location : Location) (first second : Value) :
    (value.put location first).put location second = value.put location second := by
  induction location generalizing value with
  | nil => rfl
  | cons place rest ih =>
      cases step : value.child? place with
      | none => simp only [put, step]
      | some next =>
          simp only [put, step, child?_setChild_self step, setChild_setChild]
          rw [ih next]

/-- Putting what is there changes nothing. -/
theorem put_eq_self (found : value.at? location = some old) : value.put location old = value := by
  induction location generalizing value with
  | nil =>
      cases found
      rfl
  | cons place rest ih =>
      obtain ⟨next, step, more⟩ := Option.bind_eq_some_iff.mp found
      simp only [put, step, ih more]
      exact setChild_eq_self step

/-- What is put somewhere is not noticed elsewhere. -/
theorem at?_put_of_apart {other : Location} (apart : location.Apart other) (value new : Value) :
    (value.put location new).at? other = value.at? other := by
  induction location generalizing value other with
  | nil => exact absurd List.nil_prefix apart.1
  | cons place rest ih =>
      cases step : value.child? place with
      | none => simp only [put, step]
      | some next =>
          simp only [put, step]
          cases other with
          | nil => exact absurd List.nil_prefix apart.2
          | cons place' rest' =>
              by_cases same : place = place'
              · subst same
                simp only [at?, child?_setChild_self step, step, Option.bind_some]
                exact ih (Location.apart_cons_iff.mp apart) next
              · simp only [at?, child?_setChild_of_ne same]

/-- What is put somewhere does not change how slots elsewhere are declared. -/
theorem declarationAt?_put_of_apart {other : Location} (apart : location.Apart other)
    (own : Option Declaration) (value new : Value) :
    (value.put location new).declarationAt? own other = value.declarationAt? own other := by
  induction location generalizing own value other with
  | nil => exact absurd List.nil_prefix apart.1
  | cons place rest ih =>
      cases step : value.child? place with
      | none => simp only [put, step]
      | some next =>
          cases other with
          | nil => exact absurd List.nil_prefix apart.2
          | cons place' rest' =>
              simp only [put, step, declarationAt?, declaration?_setChild]
              by_cases same : place = place'
              · subst same
                simp only [child?_setChild_self step, step, Option.bind_some]
                exact ih (Location.apart_cons_iff.mp apart) _ next
              · rw [child?_setChild_of_ne same]

/-- Nor is the slot itself declared otherwise. -/
theorem declarationAt?_put_self (own : Option Declaration) (value : Value) (location : Location)
    (new : Value) :
    (value.put location new).declarationAt? own location = value.declarationAt? own location := by
  induction location generalizing own value with
  | nil => rfl
  | cons place rest ih =>
      cases step : value.child? place with
      | none => simp only [put, step]
      | some next =>
          simp only [put, step, declarationAt?, declaration?_setChild, child?_setChild_self step,
            Option.bind_some]
          exact ih _ next

/-- Of two values that are put apart from each other, either may be put first. -/
theorem put_comm {other : Location} (apart : location.Apart other) (value first second : Value) :
    (value.put location first).put other second = (value.put other second).put location first := by
  induction location generalizing value other with
  | nil => exact absurd List.nil_prefix apart.1
  | cons place rest ih =>
      cases other with
      | nil => exact absurd List.nil_prefix apart.2
      | cons place' rest' =>
          by_cases same : place = place'
          · subst same
            cases step : value.child? place with
            | none => simp only [put, step]
            | some next =>
                simp only [put, step, child?_setChild_self step, setChild_setChild]
                rw [ih (Location.apart_cons_iff.mp apart) next]
          · cases step : value.child? place with
            | none =>
                cases step' : value.child? place' with
                | none => simp only [put, step, step']
                | some next' =>
                    simp only [put, step, step', child?_setChild_of_ne (Ne.symm same)]
            | some next =>
                cases step' : value.child? place' with
                | none => simp only [put, step, step', child?_setChild_of_ne same]
                | some next' =>
                    simp only [put, step, step', child?_setChild_of_ne same,
                      child?_setChild_of_ne (Ne.symm same), setChild_comm same]

end
end Value
end SceneEdit
