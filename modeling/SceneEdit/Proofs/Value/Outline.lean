import SceneEdit.Proofs.Value.Location
import SceneEdit.Value.Member

/-!
# Outlines of objects

The outline of an object is what is left of it without the contents of its slots. Names are looked
up in the outline, and writing into a slot keeps it.
-/

namespace SceneEdit

/-- The slot with its contents changed. -/
def Slot.map {ν μ : Type} (f : ν → μ) (slot : Slot ν) : Slot μ :=
  { slot with value := f slot.value }

namespace Table

variable {ν μ : Type}

/-- An object without what its slots hold: its type, and the names and declarations in it. -/
def outline (table : Table ν) : Table Unit where
  typeName := table.typeName
  members := table.members.map (Slot.map fun _ => ())
  shader := table.shader.map fun shader =>
    ⟨shader.name, shader.channels.map fun channel => ⟨channel.name, channel.declared, ()⟩⟩

theorem matching_outline (table : Table ν) (name : String) :
    table.outline.matching name =
      (table.matching name).map (Prod.map (Slot.map fun _ => ()) id) := by
  simp only [matching, outline, List.zipIdx_map, List.filter_map]
  rfl

theorem leading?_map (f : ν → μ) (members : List (Slot ν × Nat)) :
    leading? (members.map (Prod.map (Slot.map f) id)) =
      (leading? members).map (Prod.map (Slot.map f) id) := by
  simp only [leading?, List.find?_map, List.map_findSome?]
  rfl

/-- Names are looked up without looking at what slots hold. -/
theorem find_outline (table : Table ν) (name : String) :
    table.outline.find name = table.find name := by
  have exactly : ((fun entry : Slot Unit × Nat => decide (entry.1.name = name)) ∘
      Prod.map (Slot.map fun _ : ν => ()) id) = fun entry => decide (entry.1.name = name) := rfl
  simp only [find, matching_outline, List.filter_map, leading?_map, List.length_map, exactly]
  cases leading? _ with
  | some entry => rfl
  | none =>
      cases table.matching name with
      | nil => simp [outline, Function.comp_def, Slot.map]
      | cons first rest =>
          cases rest with
          | nil => rfl
          | cons second rest => simp [Slot.map, Function.comp_def]

theorem find_of_outline {table changed : Table ν} (same : changed.outline = table.outline)
    (name : String) : changed.find name = table.find name := by
  rw [← changed.find_outline, same, table.find_outline]

/-- The place of the shader channel of exactly a name. -/
def channelIndex? (table : Table ν) (name : String) : Option Nat :=
  table.shader.bind fun shader => shader.channelIndex? name

theorem channelIndex?_outline (table : Table ν) (name : String) :
    table.outline.channelIndex? name = table.channelIndex? name := by
  cases material : table.shader with
  | none => simp [channelIndex?, outline, material]
  | some shader =>
      simp only [channelIndex?, outline, material, Option.map_some, Option.bind_some,
        Shader.channelIndex?, List.findIdx?_map]
      rfl

theorem isMaterial_outline (table : Table ν) : table.outline.isMaterial = table.isMaterial := by
  simp [isMaterial, outline]

/-- A change at one place of a list that a view does not show. -/
theorem map_modify_eq {α β : Type} (view : α → β) (change : α → α)
    (same : ∀ item, view (change item) = view item) (items : List α) (index : Nat) :
    (items.modify index change).map view = items.map view := by
  apply List.ext_getElem?
  intro place
  rw [List.getElem?_map, List.getElem?_map, List.getElem?_modify]
  by_cases here : index = place
  · simp [here, Function.comp_def, same]
  · simp [here]

theorem outline_setMember (table : Table ν) (index : Nat) (value : ν) :
    (table.setMember index value).outline = table.outline := by
  have same := map_modify_eq (Slot.map fun _ : ν => ()) (fun member => { member with value })
    (fun _ => rfl) table.members index
  simp only [outline, setMember, same]

theorem getElem?_setMember_self {table : Table ν} {index : Nat} {member : Slot ν}
    (there : table.members[index]? = some member) (value : ν) :
    (table.setMember index value).members[index]? = some { member with value } := by
  simp [setMember, there]

theorem getElem?_setMember_of_ne {index other : Nat} (apart : index ≠ other) (table : Table ν)
    (value : ν) : (table.setMember index value).members[other]? = table.members[other]? := by
  simp [setMember, apart]

theorem outline_setChannel (table : Table ν) (index : Nat) (value : ν) :
    (table.setChannel index value).outline = table.outline := by
  have same := fun shader : Shader ν => map_modify_eq
    (fun channel : Channel ν => (⟨channel.name, channel.declared, ()⟩ : Channel Unit))
    (fun channel => { channel with value }) (fun _ => rfl) shader.channels index
  simp only [outline, setChannel, Option.map_map, Function.comp_def, same]

theorem mem_matching_iff {table : Table ν} {name : String} {entry : Slot ν × Nat} :
    entry ∈ table.matching name ↔ table.members[entry.2]? = some entry.1 ∧
      Text.sameIgnoringCase entry.1.name name = true :=
  List.mem_filter.trans (and_congr_left' List.mem_zipIdx_iff_getElem?)

theorem mem_of_leading? {members : List (Slot ν × Nat)} {entry : Slot ν × Nat}
    (first : leading? members = some entry) : entry ∈ members := by
  obtain ⟨kind, -, found⟩ := List.exists_of_findSome?_eq_some first
  exact List.mem_of_find?_eq_some found

/-- If there is any member, one leads. -/
theorem eq_nil_of_leading? {members : List (Slot ν × Nat)} (alone : leading? members = none) :
    members = [] := by
  rw [leading?, List.findSome?_eq_none_iff] at alone
  refine List.eq_nil_iff_forall_not_mem.mpr fun entry inside => ?_
  have listed : entry.1.kind ∈ [MemberKind.property, .field, .hidden] := by
    cases entry.1.kind <;> simp
  exact List.find?_eq_none.mp (alone _ listed) entry inside (decide_eq_true rfl)

/-- A name that is found stands for a member, and matches its name. -/
theorem exists_member_of_find {table : Table ν} {name : String} {index : Nat}
    (looked : (table.find name).result = .ok index) :
    ∃ member, table.members[index]? = some member ∧
      Text.sameIgnoringCase member.name name = true := by
  rw [find] at looked
  split at looked
  · rename_i exact place first
    have same : Except.ok place = (Except.ok index : Except LookupFailure Nat) := by
      rw [← looked]
      split <;> rfl
    cases same
    exact ⟨exact, mem_matching_iff.mp (List.mem_filter.mp (mem_of_leading? first)).1⟩
  · split at looked
    · cases looked
    · rename_i member place alone
      have same : place = index := Except.ok.inj looked
      have inside : (member, place) ∈ table.matching name := alone ▸ List.mem_singleton_self _
      exact ⟨member, same ▸ mem_matching_iff.mp inside⟩
    · cases looked

/-- Names that do not match each other do not stand for the same member. -/
theorem index_ne_of_find {table : Table ν} {name other : String} {index index' : Nat}
    (different : Text.sameIgnoringCase name other = false)
    (looked : (table.find name).result = .ok index)
    (looked' : (table.find other).result = .ok index') : index ≠ index' := by
  rintro rfl
  obtain ⟨member, there, matched⟩ := exists_member_of_find looked
  obtain ⟨member', there', matched'⟩ := exists_member_of_find looked'
  cases there.symm.trans there'
  rw [Text.sameIgnoringCase, beq_iff_eq] at matched matched'
  rw [Text.sameIgnoringCase, ← matched, ← matched', beq_self_eq_true] at different
  cases different

section

variable {table changed : Table Value} {index : Nat}

/-- Writing into a member what it holds changes nothing. -/
theorem setMember_held {member : Member} (there : table.members[index]? = some member) :
    table.setMember index member.value = table := by
  have child : (Value.object table).child? (.member index) = some member.value :=
    Option.map_eq_some_iff.mpr ⟨member, there, rfl⟩
  exact Value.object.inj (Value.setChild_eq_self child)

theorem typeName_of_outline (same : changed.outline = table.outline) :
    changed.typeName = table.typeName :=
  congrArg (fun outline : Table Unit => outline.typeName) same

/-- An object of the same outline has the same members, but for what they hold. -/
theorem member_of_outline {member : Member} (same : changed.outline = table.outline)
    (there : table.members[index]? = some member) :
    ∃ value, changed.members[index]? = some { member with value } := by
  have members := congrArg (fun outline => outline.members[index]?) same
  simp only [outline, List.getElem?_map, there, Option.map_some] at members
  obtain ⟨⟨name, kind, declared, writable, value⟩, there', slot⟩ :=
    Option.map_eq_some_iff.mp members
  cases slot
  exact ⟨value, there'⟩

/-- An object of the same outline has the same shader channels, but for what they hold. -/
theorem channel_of_outline {channel : Channel Value} (same : changed.outline = table.outline)
    (there : (table.shader.bind fun shader => shader.channels[index]?) = some channel) :
    ∃ value, (changed.shader.bind fun shader => shader.channels[index]?) =
      some { channel with value } := by
  obtain ⟨shader, material, there⟩ := Option.bind_eq_some_iff.mp there
  have shaders := congrArg Table.shader same
  simp only [outline, material, Option.map_some] at shaders
  obtain ⟨shader', material', slots⟩ := Option.map_eq_some_iff.mp shaders
  have channels := congrArg (fun shader => shader.channels[index]?) slots
  simp only [List.getElem?_map, there, Option.map_some] at channels
  obtain ⟨⟨name, declared, value⟩, there', slot⟩ := Option.map_eq_some_iff.mp channels
  cases slot
  exact ⟨value, by rw [material']; exact there'⟩

end

end Table

/-- Putting a value inside an object leaves an object of the same outline. -/
theorem Value.put_object (object : Object) {location : Location} (inside : location ≠ [])
    (new : Value) : ∃ changed : Object, (Value.object object).put location new = .object changed ∧
      changed.outline = object.outline := by
  obtain ⟨place, rest, rfl⟩ := List.exists_cons_of_ne_nil inside
  rw [put]
  split
  · cases place with
    | member i => exact ⟨_, rfl, object.outline_setMember i _⟩
    | channel i => exact ⟨_, rfl, object.outline_setChannel i _⟩
    | item i => exact ⟨_, rfl, rfl⟩
  · exact ⟨object, rfl, rfl⟩

/-! ### What is kept at a location -/

namespace Value

/-- The outline of an object; other values have none. -/
def outline? (value : Value) : Option (Table Unit) := value.object?.map Table.outline

/-- What is at a location is the same in both values, and the objects on the way to it have the same
outlines. -/
def KeptAt : Value → Value → Location → Prop
  | old, new, [] => new = old
  | old, new, place :: rest =>
    new.outline? = old.outline? ∧ ∃ inner inner', old.child? place = some inner ∧
      new.child? place = some inner' ∧ inner.KeptAt inner' rest

theorem KeptAt.refl {value kept : Value} {location : Location}
    (found : value.at? location = some kept) : value.KeptAt value location := by
  induction location generalizing value with
  | nil => rfl
  | cons place rest ih =>
      obtain ⟨inner, step, more⟩ := Option.bind_eq_some_iff.mp found
      exact ⟨rfl, inner, inner, step, step, ih more⟩

theorem KeptAt.at?_eq {old new : Value} {location : Location} (same : old.KeptAt new location) :
    new.at? location = old.at? location := by
  induction location generalizing old new with
  | nil => rw [show new = old from same]
  | cons place rest ih =>
      obtain ⟨-, inner, inner', step, step', more⟩ := same
      rw [at?, at?, step, step']
      exact ih more

theorem exists_object_of_keptAt {table : Object} {new : Value} {place : Place} {rest : Location}
    (same : (Value.object table).KeptAt new (place :: rest)) :
    ∃ changed : Object, new = .object changed ∧ changed.outline = table.outline := by
  cases new with
  | object changed => exact ⟨changed, rfl, Option.some.inj same.1⟩
  | _ => cases same.1

end Value
end SceneEdit
