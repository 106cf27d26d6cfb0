import SceneEdit.Coercion.Basic
import SceneEdit.Proofs.Log
import SceneEdit.Proofs.Value.Outline

/-!
# Object tokens change what they name

An object token is written entry by entry into the object that a slot holds. The name of the field
is for messages only (`coerce_field`), so what an entry does depends on the object and the entry
alone: `mergeEntry` is that step, and the merge is the fold of it.

A conversion spares what it does not name, at every depth: through members named by an entry that
is an object token again, and through items of arrays. Two entries may name one member, so what is
spared is compared with the value before all of them. Between the two there may have been changes
beside the way to it, but the objects on the way have kept their outlines (`Value.KeptAt`).
-/

namespace SceneEdit

namespace Coercion

variable {env : Environment} {field : String} {token : Token} {target : ValueType}
variable {current : Option Value}

/-! ### The field is for messages -/

theorem forField_field {α : Type} (field other : String) (target : ValueType)
    (x : Except String α) :
    (forField other target x).value? = (forField field target x).value? := by
  cases x <;> rfl

theorem absent_field (env : Environment) (field other : String) (target : ValueType) :
    (absent env other target).value? = (absent env field target).value? := by
  unfold absent
  split
  · rfl
  · split
    · rfl
    · split
      · split <;> rfl
      · rfl

theorem baseObject_field (env : Environment) (field other : String) (target : ValueType)
    (name : TypeName) (current : Option Value) :
    (baseObject env other target name current).value? =
      (baseObject env field target name current).value? := by
  unfold baseObject
  split
  · rfl
  · split <;> rfl

theorem toResource_field (library : Library) (field other : String) (token : Token)
    (name : TypeName) :
    (toResource library other token name).value? =
      (toResource library field token name).value? := by
  unfold toResource
  split
  · rfl
  · dsimp only
    split
    · rfl
    · unfold findAsset
      split
      · simp only [Traced.value?_bind, Traced.value?_tell, Traced.value?_pure]
      · split <;> simp only [Traced.value?_bind, Traced.value?_tell, Traced.value?_pure]

theorem merge_field {name : TypeName} {entries : Entries}
    (nested : target = .struct name ∨ target = .reference name)
    (document : token.embedded = .obj entries)
    (each : ∀ base other target', (mergeEntries env other target' base entries).value? =
      (mergeEntries env field target base entries).value?) (other : String) :
    (coerce env other token target current).value? =
      (coerce env field token target current).value? := by
  rw [coerce_eq_merge env other nested document, coerce_eq_merge env field nested document,
    Traced.value?_bind, Traced.value?_bind, baseObject_field env field other]
  refine Option.bind_congr fun base _ => ?_
  rw [Traced.value?_map, Traced.value?_map, each base other]

/-- What a conversion gives does not depend on the name of the field. -/
theorem coerce_field (env : Environment) (field other : String) (token : Token)
    (target : ValueType) (current : Option Value) :
    (coerce env other token target current).value? =
      (coerce env field token target current).value? := by
  refine coerce.induct
    (fun field token target current => ∀ other,
      (coerce env other token target current).value? =
        (coerce env field token target current).value?)
    (fun field target object entries => ∀ other target',
      (mergeEntries env other target' object entries).value? =
        (mergeEntries env field target object entries).value?)
    (fun field index items element current => ∀ other place,
      (coerceItems env other place items element current).value? =
        (coerceItems env field index items element current).value?)
    ?null ?nullable ?bool ?int ?long ?float ?string ?enum ?vector ?resource ?list ?noList ?array
    ?miscounted ?noArray ?struct ?noStruct ?reference ?noReference ?foreign ?merged ?merge ?empty
    ?item field token target current other
  case null =>
    intro field token target current null other
    rw [coerce_null null, coerce_null null]
    exact absent_field env field other target
  case nullable =>
    intro field token current filled inner ih other
    rw [coerce_nullable filled, coerce_nullable filled]
    exact ih other
  case bool | int | long | float | string =>
    intro field token current filled other
    rw [coerce, coerce, if_neg filled, if_neg filled]
    exact forField_field field other _ _
  case enum | vector =>
    intro field token current filled part other
    rw [coerce, coerce, if_neg filled, if_neg filled]
    exact forField_field field other _ _
  case resource =>
    intro field token current filled name other
    rw [coerce, coerce, if_neg filled, if_neg filled]
    exact toResource_field env.library field other token name
  case list =>
    intro field token current filled element items document ih other
    rw [coerce_eq_items env other (Or.inl rfl) document, coerce_eq_items env field (Or.inl rfl)
      document]
    simp only [Traced.value?_map, ih other 0]
  case array =>
    intro field token current filled element items document ih other
    rw [coerce_eq_items env other (Or.inr rfl) document, coerce_eq_items env field (Or.inr rfl)
      document]
    simp only [Traced.value?_map, ih other 0]
  case miscounted =>
    intro field token current filled element length items document wrong other
    rw [coerce_array_eq filled, coerce_array_eq filled, document]
    dsimp only
    rw [if_neg wrong, if_neg wrong]
    rfl
  case noList =>
    intro field token current filled element wrong other
    rw [coerce_of_ne_arr filled (Or.inl rfl) wrong, coerce_of_ne_arr filled (Or.inl rfl) wrong]
    rfl
  case noArray =>
    intro field token current filled element length wrong other
    rw [coerce_of_ne_arr filled (Or.inr ⟨length, rfl⟩) wrong,
      coerce_of_ne_arr filled (Or.inr ⟨length, rfl⟩) wrong]
    rfl
  case struct =>
    intro field token current filled name entries document ih other
    exact merge_field (Or.inl rfl) document ih other
  case reference =>
    intro field token current filled name entries document ih other
    exact merge_field (Or.inr rfl) document ih other
  case noStruct =>
    intro field token current filled name wrong other
    rw [coerce_of_ne_obj filled (Or.inl rfl) wrong, coerce_of_ne_obj filled (Or.inl rfl) wrong]
    rfl
  case noReference =>
    intro field token current filled name wrong other
    rw [coerce_of_ne_obj filled (Or.inr rfl) wrong, coerce_of_ne_obj filled (Or.inr rfl) wrong]
    rfl
  case foreign =>
    intro field token current filled name other
    rw [coerce, coerce, if_neg filled, if_neg filled]
    rfl
  case merged =>
    intro field target object other target'
    rw [mergeEntries, mergeEntries]
  case merge =>
    intro field target object key token rest skip value write other target'
    rw [mergeEntries, mergeEntries]
    simp only [Traced.value?_bind, Traced.value?_mapError]
    refine Option.bind_congr fun index _ => ?_
    split
    · exact skip other target'
    · rename_i member there
      split
      · simp only [Traced.value?_bind, value member s!"{other}.{member.name}",
          fun new => write index new other target']
      · rfl
  case empty =>
    intro field index element current other place
    rw [coerceItems, coerceItems]
  case item =>
    intro field index element current item rest first more other place
    rw [coerceItems, coerceItems]
    simp only [Traced.value?_bind, first s!"{other}[{place}]", more other (place + 1)]

/-! ### Absence -/

theorem forField_filled {α : Type} {x : Except String α} {make : α → Value}
    (filled : ∀ a, (make a).isNull = false) :
    (forField field target (x.map make)).Gives fun value => value.isNull = false := by
  refine .ofExcept fun value given => ?_
  obtain ⟨a, -, rfl⟩ := map_eq_ok_iff.mp (mapError_eq_ok_iff.mp given)
  exact filled a

/-- The zero value of a type that does not accept absence is not absent. -/
theorem isNull_of_zero? {value : Value} (required : target.acceptsAbsence = false)
    (zero : target.zero? = some value) : value.isNull = false := by
  cases target with
  | enum type =>
      obtain ⟨label, -, rfl⟩ := Option.map_eq_some_iff.mp zero
      rfl
  | resource | reference | nullable | foreign => cases required
  | struct => cases zero
  | _ =>
      cases zero
      rfl

theorem absent_filled (required : target.acceptsAbsence = false) :
    (absent env field target).Gives fun value => value.isNull = false := by
  unfold absent
  rw [if_neg (by simp [required])]
  split
  · rename_i value zero
    exact .pure (isNull_of_zero? required zero)
  · split
    · split
      · exact .pure rfl
      · exact .throw _
    · exact .throw _

theorem coerce_filled (required : target.acceptsAbsence = false) :
    (coerce env field token target current).Gives fun value => value.isNull = false := by
  by_cases null : token.isNull = true
  · rw [coerce_null null]
    exact absent_filled required
  cases target with
  | resource | reference | nullable | foreign => cases required
  | list element =>
      rw [coerce_list_eq null]
      split
      · exact .map fun _ _ => rfl
      · exact .throw _
  | array element length =>
      rw [coerce_array_eq null]
      split
      · split
        · exact .map fun _ _ => rfl
        · exact .throw _
      · exact .throw _
  | struct name =>
      rw [coerce_nested_eq null (Or.inl rfl)]
      split
      · exact (Traced.Gives.any _).bind fun base _ => .map fun _ _ => rfl
      · exact .throw _
  | _ =>
      rw [coerce, if_neg null]
      exact forField_filled fun _ => rfl

/-- A conversion gives absence only where the type accepts it. -/
theorem acceptsAbsence_of_coerce {value : Value}
    (converted : (coerce env field token target current).result = .ok value)
    (null : value.isNull = true) : target.acceptsAbsence = true := by
  cases accepts : target.acceptsAbsence with
  | true => rfl
  | false => exact (coerce_filled accepts value converted).symm.trans null

/-! ### One entry after the other -/

/-- The object with the member that an entry names written. -/
def mergeEntry (env : Environment) (object : Object) (entry : String × Token) : Option Object := do
  let index ← (object.find entry.1).value?
  let member ← object.members[index]?
  if member.writable then
    let value ← (coerce env entry.1 entry.2 member.declared (some member.value)).value?
    return object.setMember index value
  else none

theorem mergeEntry_eq_some_iff {object merged : Object} {key : String} (field : String) :
    mergeEntry env object (key, token) = some merged ↔ ∃ index member value,
      (object.find key).result = .ok index ∧ object.members[index]? = some member ∧
      member.writable = true ∧
      (coerce env field token member.declared (some member.value)).result = .ok value ∧
      object.setMember index value = merged := by
  simp only [mergeEntry, coerce_field env field key, Option.bind_eq_bind, Option.bind_eq_some_iff,
    Traced.value?_eq_some_iff]
  constructor
  · rintro ⟨index, looked, member, there, written⟩
    split at written
    · rename_i writable
      obtain ⟨value, converted, made⟩ := Option.bind_eq_some_iff.mp written
      exact ⟨index, member, value, looked, there, writable,
        Traced.value?_eq_some_iff.mp converted, Option.some.inj made⟩
    · cases written
  · rintro ⟨index, member, value, looked, there, writable, converted, rfl⟩
    refine ⟨index, looked, member, there, ?_⟩
    rw [if_pos writable, Traced.value?_eq_some_iff.mpr converted]
    rfl

theorem outline_mergeEntry {object merged : Object} {entry : String × Token}
    (done : mergeEntry env object entry = some merged) : merged.outline = object.outline := by
  obtain ⟨index, _, value, -, -, -, -, rfl⟩ := (mergeEntry_eq_some_iff "").mp done
  exact object.outline_setMember index value

theorem outline_foldlM_mergeEntry {table merged : Object} {entries : Entries}
    (done : entries.foldlM (mergeEntry env) table = some merged) :
    merged.outline = table.outline := by
  induction entries generalizing table with
  | nil =>
      cases done
      rfl
  | cons entry rest ih =>
      rw [List.foldlM_cons] at done
      obtain ⟨next, first, more⟩ := Option.bind_eq_some_iff.mp done
      exact (ih more).trans (outline_mergeEntry first)

theorem mergeEntries_eq_foldlM (env : Environment) (field : String) (target : ValueType)
    (object : Object) (entries : Entries) :
    (mergeEntries env field target object entries).value? =
      entries.foldlM (mergeEntry env) object := by
  induction entries generalizing object with
  | nil =>
      rw [mergeEntries]
      rfl
  | cons entry rest ih =>
      obtain ⟨key, token⟩ := entry
      rw [mergeEntries, Traced.value?_bind, Traced.value?_mapError, List.foldlM_cons, mergeEntry]
      simp only [Option.bind_eq_bind, Option.bind_assoc]
      refine Option.bind_congr fun index looked => ?_
      obtain ⟨member, there, -⟩ :=
        Table.exists_member_of_find (Traced.value?_eq_some_iff.mp looked)
      rw [there, Option.bind_some]
      dsimp only
      split
      · rw [Traced.value?_bind, coerce_field env key]
        simp only [Option.bind_assoc, Option.pure_def, Option.bind_some, ih]
      · rfl

/-- What an object token gives is written entry by entry. -/
theorem coerce_nested (env : Environment) (field : String) {name : TypeName} {entries : Entries}
    (nested : target = .struct name ∨ target = .reference name)
    (document : token.embedded = .obj entries) (current : Option Value) :
    (coerce env field token target current).value? =
      (baseObject env field target name current).value?.bind fun base =>
        (entries.foldlM (mergeEntry env) base).map .object := by
  rw [coerce_eq_merge env field nested document]
  simp only [Traced.value?_bind, Traced.value?_map, mergeEntries_eq_foldlM]

/-- A nested object is made from an object. -/
theorem exists_entries_of_coerce {name : TypeName} {value : Value}
    (filled : ¬ token.isNull = true) (nested : target = .struct name ∨ target = .reference name)
    (converted : (coerce env field token target current).value? = some value) :
    ∃ entries, token.embedded = .obj entries := by
  by_cases given : ∃ entries, token.embedded = .obj entries
  · exact given
  · rw [coerce_of_ne_obj filled nested (not_exists.mp given)] at converted
    cases converted

/-- An object of the type is what object tokens are written into. -/
theorem baseObject_of_typeName (env : Environment) (field : String) (target : ValueType)
    {name : TypeName} {table : Object} (same : table.typeName = name) :
    baseObject env field target name (some (.object table)) = pure table := by
  simp [baseObject, Value.object?, Option.filter, same]

/-- Into an object of the type, an object token is written entry by entry. -/
theorem coerce_object (env : Environment) (field : String) {name : TypeName} {entries : Entries}
    {table : Object} (nested : target = .struct name ∨ target = .reference name)
    (document : token.embedded = .obj entries) (same : table.typeName = name) :
    (coerce env field token target (some (.object table))).value? =
      (entries.foldlM (mergeEntry env) table).map .object := by
  rw [coerce_nested env field nested document, baseObject_of_typeName env field target same,
    Traced.value?_pure, Option.bind_some]

/-! ### What is spared -/

/-- A token that is written into a value for a type leaves alone what is at a location: every entry
that names the member that the location leads through spares what is there, and an array spares what
the item in the same place spares. -/
inductive Spares : ValueType → Token → Value → Location → Prop
  | object {type : ValueType} {name : TypeName} {token : Token} {entries : Entries}
      {table : Object} {place : Place} {rest : Location}
      (nested : type = .struct name ∨ type = .reference name) (same : table.typeName = name)
      (document : token.embedded = .obj entries)
      (each : ∀ key inner index member, (key, inner) ∈ entries →
        (table.find key).result = .ok index → table.members[index]? = some member →
        place = .member index → Spares member.declared inner member.value rest) :
      Spares type token (.object table) (place :: rest)
  | item {type element : ValueType} {token inner : Token} {items : List Token}
      {values : List Value} {value : Value} {index : Nat} {rest : Location}
      (collection : type = .list element ∨ ∃ length, type = .array element length)
      (document : token.embedded = .arr items) (given : items[index]? = some inner)
      (held : values[index]? = some value) (spares : Spares element inner value rest) :
      Spares type token (.list values) (.item index :: rest)
  | nullable {type : ValueType} {token : Token} {value : Value} {location : Location}
      (spares : Spares type token value location) : Spares (.nullable type) token value location

theorem Spares.filled {value : Value} {location : Location}
    (spares : Spares target token value location) : ¬ token.isNull = true := by
  induction spares with
  | object nested same document each =>
      exact Token.filled_of_embedded document Bool.false_ne_true
  | item collection document given held spares =>
      exact Token.filled_of_embedded document Bool.false_ne_true
  | nullable spares ih => exact ih

/-- One entry keeps what it does not name, and where it names the member on the way, what its
conversion keeps. -/
theorem mergeEntry_keptAt {table changed merged : Object} {key : String} {place : Place}
    {rest : Location} (kept : (Value.object table).KeptAt (.object changed) (place :: rest))
    (each : ∀ index member, (table.find key).result = .ok index →
      table.members[index]? = some member → place = .member index →
      ∀ value, member.value.KeptAt value rest →
        (coerce env key token member.declared (some value)).Gives (member.value.KeptAt · rest))
    (done : mergeEntry env changed (key, token) = some merged) :
    (Value.object table).KeptAt (.object merged) (place :: rest) := by
  obtain ⟨index, slot, value, looked, there, -, converted, rfl⟩ :=
    (mergeEntry_eq_some_iff key).mp done
  obtain ⟨same, inner, inner', step, step', more⟩ := kept
  have outlines : changed.outline = table.outline := Option.some.inj same
  have outlines' : (Value.object (changed.setMember index value)).outline? =
      (Value.object table).outline? :=
    congrArg some ((changed.outline_setMember index value).trans outlines)
  by_cases here : place = .member index
  · subst here
    obtain ⟨held, there'⟩ := Table.member_of_outline outlines.symm there
    have looked' : (table.find key).result = .ok index := by
      rw [← Table.find_of_outline outlines]
      exact looked
    have before : (Value.object table).child? (.member index) = some held :=
      Option.map_eq_some_iff.mpr ⟨_, there', rfl⟩
    have now : (Value.object changed).child? (.member index) = some slot.value :=
      Option.map_eq_some_iff.mpr ⟨slot, there, rfl⟩
    cases step.symm.trans before
    cases step'.symm.trans now
    refine ⟨outlines', inner, value, step, Value.child?_setChild_self now value, ?_⟩
    exact each index _ looked' there' rfl slot.value more value converted
  · refine ⟨outlines', inner, inner', step, ?_, more⟩
    exact (Value.child?_setChild_of_ne (Ne.symm here) (.object changed) value).trans step'

theorem foldlM_mergeEntry_keptAt {table changed merged : Object} {entries : Entries}
    {place : Place} {rest : Location}
    (kept : (Value.object table).KeptAt (.object changed) (place :: rest))
    (each : ∀ key inner index member, (key, inner) ∈ entries →
      (table.find key).result = .ok index → table.members[index]? = some member →
      place = .member index → ∀ field value, member.value.KeptAt value rest →
        (coerce env field inner member.declared (some value)).Gives (member.value.KeptAt · rest))
    (done : entries.foldlM (mergeEntry env) changed = some merged) :
    (Value.object table).KeptAt (.object merged) (place :: rest) := by
  induction entries generalizing changed with
  | nil =>
      cases done
      exact kept
  | cons entry others ih =>
      obtain ⟨key, inner⟩ := entry
      rw [List.foldlM_cons] at done
      obtain ⟨next, first, more⟩ := Option.bind_eq_some_iff.mp done
      refine ih (mergeEntry_keptAt kept ?_ first) ?_ more
      · exact fun index member looked there through =>
          each key inner index member List.mem_cons_self looked there through key
      · exact fun key inner index member inside =>
          each key inner index member (List.mem_cons_of_mem _ inside)

/-- Every item has been converted against the one in its place, for some field. -/
def ItemsConvert (env : Environment) (element : ValueType) (items : List Token)
    (current values : List Value) : Prop :=
  ∀ (place : Nat) token, items[place]? = some token → ∃ field value, values[place]? = some value ∧
    (coerce env field token element current[place]?).result = .ok value

theorem coerceItems_convert (env : Environment) (field : String) (index : Nat) (items : List Token)
    (element : ValueType) (current : List Value) :
    (coerceItems env field index items element current).Gives
      (ItemsConvert env element items current) := by
  induction items generalizing index current with
  | nil =>
      rw [coerceItems]
      exact .pure fun place token given => by cases given
  | cons item rest ih =>
      rw [coerceItems]
      have first : (coerce env s!"{field}[{index}]" item element current.head?).Gives fun value =>
        (coerce env s!"{field}[{index}]" item element current.head?).result = .ok value :=
          fun _ given => given
      refine first.bind fun value converted => (ih (index + 1) current.tail).bind
        fun values others => .pure fun place token given => ?_
      cases place with
      | zero =>
          cases given
          rw [List.head?_eq_getElem?] at converted
          exact ⟨_, value, rfl, converted⟩
      | succ place =>
          obtain ⟨name, found, there, converted⟩ := others place token given
          rw [List.getElem?_tail] at converted
          exact ⟨name, found, there, converted⟩

/-- A collection is given its items by an array, and as many as its type asks for. -/
theorem exists_items_of_coerce {element : ValueType} {value : Value}
    (filled : ¬ token.isNull = true)
    (collection : target = .list element ∨ ∃ length, target = .array element length)
    (converted : (coerce env field token target current).value? = some value) :
    ∃ items, token.embedded = .arr items ∧
      (target = .list element ∨ target = .array element items.length) := by
  by_cases given : ∃ items, token.embedded = .arr items
  · obtain ⟨items, document⟩ := given
    refine ⟨items, document, ?_⟩
    obtain rfl | ⟨length, rfl⟩ := collection
    · exact Or.inl rfl
    · rw [coerce_array_eq filled, document] at converted
      dsimp only at converted
      split at converted
      · rename_i counted
        exact Or.inr (counted ▸ rfl)
      · cases converted
  · rw [coerce_of_ne_arr filled collection (not_exists.mp given)] at converted
    cases converted

/-- The items of an array are converted one by one. -/
theorem coerce_collection (env : Environment) (field : String) {element : ValueType}
    {items : List Token}
    (collection : target = .list element ∨ target = .array element items.length)
    (document : token.embedded = .arr items) (current : Option Value) :
    (coerce env field token target current).value? =
      (coerceItems env field 0 items element (currentItems current)).value?.map .list := by
  rw [coerce_eq_items env field collection document]
  exact Traced.value?_map _ _

theorem coerce_list {element : ValueType} {items : List Token}
    (collection : target = .list element ∨ ∃ length, target = .array element length)
    (document : token.embedded = .arr items) :
    (coerce env field token target current).Gives fun result => ∃ values, result = .list values ∧
      ItemsConvert env element items (currentItems current) values := by
  intro result given
  have converted := Traced.value?_eq_some_iff.mpr given
  have filled := Token.filled_of_embedded document Bool.false_ne_true
  obtain ⟨items', document', counted⟩ := exists_items_of_coerce filled collection converted
  cases document.symm.trans document'
  rw [coerce_collection env field counted document] at converted
  obtain ⟨values, done, rfl⟩ := Option.map_eq_some_iff.mp converted
  exact ⟨values, rfl, coerceItems_convert env field 0 items element (currentItems current) values
    (Traced.value?_eq_some_iff.mp done)⟩

/-- A conversion keeps what its token spares. -/
theorem coerce_keptAt {type : ValueType} {old : Value} {location : Location}
    (spares : Spares type token old location) (field : String) (new : Value)
    (kept : old.KeptAt new location) :
    (coerce env field token type (some new)).Gives (old.KeptAt · location) := by
  induction spares generalizing field new with
  | object nested same document each ih =>
      obtain ⟨changed, rfl, outlines⟩ := Value.exists_object_of_keptAt kept
      have same' := (Table.typeName_of_outline outlines).trans same
      intro value given
      have merged := coerce_object env field nested document same'
      rw [Traced.value?_eq_some_iff.mpr given] at merged
      obtain ⟨table, folded, rfl⟩ := Option.map_eq_some_iff.mp merged.symm
      exact foldlM_mergeEntry_keptAt kept ih folded
  | item collection document given held spares ih =>
      obtain ⟨-, inner, inner', step, step', more⟩ := kept
      cases held.symm.trans step
      cases new with
      | list values' =>
          refine (coerce_list collection document).mono ?_
          rintro _ ⟨values, rfl, each⟩
          obtain ⟨name, value, there, converted⟩ := each _ _ given
          have there' : (currentItems (some (.list values')))[_]? = some inner' := step'
          rw [there'] at converted
          exact ⟨rfl, _, value, step, there, ih name inner' more value converted⟩
      | _ => cases step'
  | nullable spares ih =>
      rw [coerce_nullable spares.filled]
      exact ih field new kept

end Coercion
end SceneEdit
