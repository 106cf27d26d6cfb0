import SceneEdit.Proofs.Path.Typing
import SceneEdit.Proofs.Value.Outline

/-!
# Reading and writing meet at a location

A path leads to a location: names become places in tables, and the rest are places in lists already.
Reading finds what is at the location, and writing puts there what the token converts to. So the
laws of locations are laws of paths: what was written is read back, and what is read along a path
that leads elsewhere is what was read before.

A write may change which names there are only where it writes. So a path that does not lead through
the written slot leads to the same location afterwards (`locateSegments_put`): its names are looked
up in the outlines of objects, and a write keeps the outline of every object it goes through.
-/

namespace SceneEdit.Access

/-! ### Locations of paths -/

/-- Where the member that a segment names, or the item in it, is. -/
def locateMember (object : Object) (segment : Segment) : Option Location :=
  match (object.find segment.name).result with
  | .ok index => some (.member index :: segment.indices.map .item)
  | .error _ => none

/-- Where the slot that the last segment names is, if it is there. -/
def locateSlot (access : Access) (object : Object) (segment : Segment) : Option Location :=
  (if access.isChannel object segment then
    (object.channelIndex? segment.name).map fun index => [.channel index]
  else locateMember object segment).filter fun location =>
    ((Value.object object).at? location).isSome

/-- Where the slot at the end of some segments is. -/
def locateSegments (access : Access) (last : Segment) : Object → List Segment → Option Location
  | object, [] => access.locateSlot object last
  | object, segment :: rest =>
    (locateMember object segment).bind fun location =>
      (((Value.object object).at? location).bind Value.object?).bind fun inner =>
        (access.locateSegments last inner rest).map (location ++ ·)

/-- Where a path leads in an object. -/
def locate (access : Access) (object : Object) (path : String) : Option Location :=
  (Path.parse path).toOption.bind fun parsed =>
    access.locateSegments parsed.last object parsed.parents

section

variable {object : Object} {path name : String} {segment : Segment}

theorem at?_member {index : Nat} {member : Member} (there : object.members[index]? = some member)
    (rest : Location) :
    (Value.object object).at? (.member index :: rest) = member.value.at? rest := by
  simp [Value.at?, Value.child?, there]

theorem item_eq_ok_iff {value inner : Value} {index : Nat} :
    item path name value index = .ok inner ↔ value.child? (.item index) = some inner := by
  constructor
  · intro found
    obtain ⟨items, rfl, there⟩ := item_eq_ok found
    exact there
  · intro found
    cases value with
    | list items =>
        have there : items[index]? = some inner := found
        simp [item, there]
    | _ => cases found

theorem items_eq_ok_iff {value inner : Value} {indices : List Nat} :
    items path name value indices = .ok inner ↔
      value.at? (indices.map Place.item) = some inner := by
  induction indices generalizing value with
  | nil => simp [items, Value.at?]
  | cons index rest ih =>
      simp only [items, bind_eq_ok_iff, List.map_cons, Value.at?, Option.bind_eq_some_iff,
        item_eq_ok_iff, ih]

theorem replace_eq_put (value : Value) (indices : List Nat) (new : Value) :
    replace value indices new = value.put (indices.map Place.item) new := by
  induction indices generalizing value with
  | nil => cases value <;> rfl
  | cons index rest ih =>
      cases value with
      | list items =>
          simp only [replace, List.map_cons, Value.put, Value.child?]
          cases there : items[index]? with
          | none => exact congrArg Value.list (Value.modify_eq_self (by simp [there]))
          | some inner =>
              simp only [Value.setChild, Value.list.injEq]
              apply List.ext_getElem?
              intro place
              rw [List.getElem?_modify, List.getElem?_modify]
              by_cases here : index = place
              · subst here
                simp [there, ih]
              · simp [here]
      | _ => rfl

/-- Items of what is not declared are not declared. -/
theorem declarationAt?_items_none (value : Value) (indices : List Nat) :
    value.declarationAt? none (indices.map Place.item) = none := by
  induction indices generalizing value with
  | nil => rfl
  | cons index rest ih =>
      have none : value.declaration? none (.item index) = none := by cases value <;> rfl
      rw [List.map_cons, Value.declarationAt?, none]
      cases value.child? (.item index) with
      | none => rfl
      | some inner => exact ih inner

/-- The two walks of a write, through values and through declared types, are those of a
location. -/
theorem element_eq_ok_iff {type declared : ValueType} {value current : Value} {indices : List Nat}
    (writable : Bool) :
    element path segment type value indices = .ok (declared, current) ↔
      value.at? (indices.map Place.item) = some current ∧
        value.declarationAt? (some ⟨type, writable⟩) (indices.map Place.item) =
          some ⟨declared, writable⟩ := by
  induction indices generalizing value type with
  | nil =>
      simp only [element, Except.ok.injEq, Prod.mk.injEq, List.map_nil, Value.at?,
        Value.declarationAt?, Option.some.injEq, Declaration.mk.injEq, and_true]
      exact and_comm
  | cons index rest ih =>
      have inList : ∀ {inner}, value.child? (.item index) = some inner →
          value.declaration? (some ⟨type, writable⟩) (.item index) =
            type.element?.map fun element => ⟨element, writable⟩ := by
        intro inner step
        cases value with
        | list items => rfl
        | _ => cases step
      simp only [List.map_cons, Value.at?, Value.declarationAt?]
      cases step : value.child? (.item index) with
      | none =>
          have failed : ∀ inner, item path segment.name value index ≠ .ok inner := by
            intro inner found
            rw [item_eq_ok_iff, step] at found
            cases found
          cases collection : type.element? with
          | none => simp [element, collection]
          | some inner => simp [element, collection, bind_eq_ok_iff, failed]
      | some next =>
          have found : item path segment.name value index = .ok next := item_eq_ok_iff.mpr step
          rw [inList step]
          cases collection : type.element? with
          | none => simp [element, collection, declarationAt?_items_none]
          | some inner => simp [element, collection, bind_eq_ok_iff, found, ih]

theorem memberAt_eq_ok_iff {index : Nat} {member : Member} :
    (memberAt path object name).result = .ok (index, member) ↔
      (object.find name).result = .ok index ∧ object.members[index]? = some member := by
  rw [memberAt, Traced.result_bind]
  constructor
  · intro found
    obtain ⟨place, looked, there⟩ := bind_eq_ok_iff.mp found
    split at there
    · rename_i held
      cases there
      exact ⟨mapError_eq_ok_iff.mp looked, held⟩
    · cases there
  · rintro ⟨looked, there⟩
    refine bind_eq_ok_iff.mpr ⟨index, mapError_eq_ok_iff.mpr looked, ?_⟩
    rw [there]
    rfl

theorem channelAt_eq_ok_iff {index : Nat} {channel : Channel Value} :
    channelAt path object name = .ok (index, channel) ↔
      object.channelIndex? name = some index ∧
        (object.shader.bind fun shader => shader.channels[index]?) = some channel := by
  have found : channelAt path object name = .ok (index, channel) ↔ (do
      let shader ← object.shader
      let index ← shader.channelIndex? name
      let channel ← shader.channels[index]?
      return (index, channel)) = some (index, channel) := by
    rw [channelAt]
    cases (do
      let shader ← object.shader
      let index ← shader.channelIndex? name
      let channel ← shader.channels[index]?
      return (index, channel)) <;> simp
  simp only [found, Table.channelIndex?, Option.bind_eq_bind, Option.pure_def,
    Option.bind_eq_some_iff, Option.some.injEq, Prod.mk.injEq]
  constructor
  · rintro ⟨shader, material, place, placed, held, there, rfl, rfl⟩
    exact ⟨⟨shader, material, placed⟩, shader, material, there⟩
  · rintro ⟨⟨shader, material, placed⟩, shader', material', there⟩
    cases material.symm.trans material'
    exact ⟨shader, material, index, placed, channel, there, rfl, rfl⟩

end

section

variable {access : Access} {object : Object} {path : String} {segment last : Segment}
variable {location : Location}

theorem locateMember_eq_some_iff :
    locateMember object segment = some location ↔ ∃ index,
      (object.find segment.name).result = .ok index ∧
        location = .member index :: segment.indices.map Place.item := by
  rw [locateMember]
  cases (object.find segment.name).result with
  | error failure => simp
  | ok index =>
      simp only [Option.some.injEq, Except.ok.injEq, exists_eq_left']
      exact eq_comm

/-- A location in a member leads where the items of the member are. -/
theorem at?_member_eq_some_iff {index : Nat} {rest : Location} {value : Value} :
    (Value.object object).at? (.member index :: rest) = some value ↔
      ∃ member, object.members[index]? = some member ∧ member.value.at? rest = some value := by
  simp only [Value.at?, Value.child?, Option.bind_eq_some_iff, Option.map_eq_some_iff]
  constructor
  · rintro ⟨_, ⟨member, there, rfl⟩, found⟩
    exact ⟨member, there, found⟩
  · rintro ⟨member, there, found⟩
    exact ⟨_, ⟨member, there, rfl⟩, found⟩

theorem at?_channel_eq_some_iff {index : Nat} {value : Value} :
    (Value.object object).at? [.channel index] = some value ↔
      ∃ channel, (object.shader.bind fun shader => shader.channels[index]?) = some channel ∧
        channel.value = value := by
  simp only [Value.at?, Value.child?, Option.bind_eq_some_iff, Option.map_eq_some_iff,
    Option.some.injEq]
  constructor
  · rintro ⟨_, ⟨shader, material, channel, there, rfl⟩, rfl⟩
    exact ⟨channel, ⟨shader, material, there⟩, rfl⟩
  · rintro ⟨channel, ⟨shader, material, there⟩, rfl⟩
    exact ⟨_, ⟨shader, material, channel, there, rfl⟩, rfl⟩

theorem locateSlot_of_channel (routed : access.isChannel object segment = true) :
    access.locateSlot object segment = some location ↔
      ∃ index, object.channelIndex? segment.name = some index ∧ location = [.channel index] ∧
        ((Value.object object).at? location).isSome = true := by
  rw [locateSlot, if_pos routed, Option.filter_eq_some_iff, Option.map_eq_some_iff]
  constructor
  · rintro ⟨⟨index, placed, rfl⟩, there⟩
    exact ⟨index, placed, rfl, there⟩
  · rintro ⟨index, placed, rfl, there⟩
    exact ⟨⟨index, placed, rfl⟩, there⟩

theorem locateSlot_of_member (direct : access.isChannel object segment = false) :
    access.locateSlot object segment = some location ↔
      locateMember object segment = some location ∧
        ((Value.object object).at? location).isSome = true := by
  rw [locateSlot, direct, if_neg Bool.false_ne_true, Option.filter_eq_some_iff]

/-! ### Reading -/

theorem readSlot_eq_ok_iff {value : Value} :
    (access.readSlot path object segment).result = .ok value ↔ ∃ location,
      access.locateSlot object segment = some location ∧
        (Value.object object).at? location = some value := by
  rw [readSlot]
  cases routed : access.isChannel object segment with
  | true =>
      simp only [if_true, Traced.result_ofExcept, map_eq_ok_iff, Prod.exists,
        channelAt_eq_ok_iff, locateSlot_of_channel routed]
      constructor
      · rintro ⟨index, channel, ⟨placed, there⟩, rfl⟩
        have found := at?_channel_eq_some_iff.mpr ⟨channel, there, rfl⟩
        exact ⟨_, ⟨index, placed, rfl, by rw [found]; rfl⟩, found⟩
      · rintro ⟨_, ⟨index, placed, rfl, -⟩, found⟩
        obtain ⟨channel, there, same⟩ := at?_channel_eq_some_iff.mp found
        exact ⟨index, channel, ⟨placed, there⟩, same⟩
  | false =>
      simp only [Bool.false_eq_true, if_false, Traced.result_bind, Traced.result_ofExcept,
        locateSlot_of_member routed]
      refine bind_eq_ok_iff.trans ?_
      simp only [Prod.exists, memberAt_eq_ok_iff, items_eq_ok_iff, locateMember_eq_some_iff]
      constructor
      · rintro ⟨index, member, ⟨looked, there⟩, held⟩
        have found := at?_member_eq_some_iff.mpr ⟨member, there, held⟩
        exact ⟨_, ⟨⟨index, looked, rfl⟩, by rw [found]; rfl⟩, found⟩
      · rintro ⟨_, ⟨⟨index, looked, rfl⟩, -⟩, found⟩
        obtain ⟨member, there, held⟩ := at?_member_eq_some_iff.mp found
        exact ⟨index, member, ⟨looked, there⟩, held⟩

/-- One segment that leads to an object. -/
theorem nested_eq_ok_iff {index : Nat} {member : Member} {inner : Object}
    (there : object.members[index]? = some member) :
    nested path segment member.value = .ok inner ↔
      (Value.object object).at? (.member index :: segment.indices.map Place.item) =
        some (.object inner) := by
  rw [at?_member there, ← items_eq_ok_iff]
  constructor
  · exact nested_eq_ok
  · intro found
    rw [nested, found]
    rfl

theorem locateSegments_cons_eq_some_iff {rest : List Segment} :
    access.locateSegments last object (segment :: rest) = some location ↔
      ∃ first inner further, locateMember object segment = some first ∧
        (Value.object object).at? first = some (.object inner) ∧
        access.locateSegments last inner rest = some further ∧ location = first ++ further := by
  have isObject : ∀ {value : Value} {inner : Object},
      value.object? = some inner ↔ value = .object inner := by
    intro value inner
    cases value <;> simp [Value.object?]
  simp only [locateSegments, Option.bind_eq_some_iff, Option.map_eq_some_iff, isObject]
  constructor
  · rintro ⟨first, placed, inner, ⟨_, there, rfl⟩, further, more, rfl⟩
    exact ⟨first, inner, further, placed, there, more, rfl⟩
  · rintro ⟨first, inner, further, placed, there, more, rfl⟩
    exact ⟨first, placed, inner, ⟨_, there, rfl⟩, further, more, rfl⟩

theorem readSegments_eq_ok_iff {segments : List Segment} {value : Value} :
    (access.readSegments path last object segments).result = .ok value ↔ ∃ location,
      access.locateSegments last object segments = some location ∧
        (Value.object object).at? location = some value := by
  induction segments generalizing object with
  | nil => exact readSlot_eq_ok_iff
  | cons segment rest ih =>
      rw [readSegments, Traced.result_bind]
      refine bind_eq_ok_iff.trans ?_
      simp only [Traced.result_bind, Traced.result_ofExcept, Prod.exists, memberAt_eq_ok_iff,
        locateSegments_cons_eq_some_iff, locateMember_eq_some_iff]
      constructor
      · rintro ⟨index, member, ⟨looked, there⟩, walked⟩
        obtain ⟨inner, step, walked⟩ := bind_eq_ok_iff.mp walked
        obtain ⟨further, located, found⟩ := ih.mp walked
        have place := (nested_eq_ok_iff there).mp step
        refine ⟨_, ⟨_, inner, further, ⟨index, looked, rfl⟩, place, located, rfl⟩, ?_⟩
        rw [Value.at?_append, place]
        exact found
      · rintro ⟨_, ⟨_, inner, further, ⟨index, looked, rfl⟩, place, located, rfl⟩, found⟩
        rw [Value.at?_append, place] at found
        obtain ⟨member, there, -⟩ := at?_member_eq_some_iff.mp place
        refine ⟨index, member, ⟨looked, there⟩, bind_eq_ok_iff.mpr ⟨inner, ?_, ?_⟩⟩
        · exact (nested_eq_ok_iff there).mpr place
        · exact ih.mpr ⟨further, located, found⟩

theorem read_eq_ok_iff {value : Value} :
    (access.read object path).result = .ok value ↔ ∃ location,
      access.locate object path = some location ∧
        (Value.object object).at? location = some value := by
  rw [read, Traced.result_bind, Traced.result_ofExcept, locate]
  cases Path.parse path with
  | error report => simp [Except.bind, Except.toOption]
  | ok parsed =>
      simp only [Except.bind, Except.toOption, Option.bind_some]
      exact readSegments_eq_ok_iff

/-! ### Where paths lead after a change -/

theorem locateSegments_ne_nil {segments : List Segment}
    (located : access.locateSegments last object segments = some location) : location ≠ [] := by
  cases segments with
  | nil =>
      rw [locateSegments] at located
      cases routed : access.isChannel object last with
      | true =>
          obtain ⟨index, -, rfl, -⟩ := (locateSlot_of_channel routed).mp located
          simp
      | false =>
          obtain ⟨index, -, rfl⟩ :=
            locateMember_eq_some_iff.mp ((locateSlot_of_member routed).mp located).1
          simp
  | cons segment rest =>
      obtain ⟨first, inner, further, placed, -, -, rfl⟩ :=
        locateSegments_cons_eq_some_iff.mp located
      obtain ⟨index, -, rfl⟩ := locateMember_eq_some_iff.mp placed
      simp

/-- A path leads to something. -/
theorem exists_at?_of_locateSegments {segments : List Segment}
    (located : access.locateSegments last object segments = some location) :
    ∃ value, (Value.object object).at? location = some value := by
  induction segments generalizing object location with
  | nil => exact Option.isSome_iff_exists.mp (Option.filter_eq_some_iff.mp located).2
  | cons segment rest ih =>
      obtain ⟨first, inner, further, -, place, more, rfl⟩ :=
        locateSegments_cons_eq_some_iff.mp located
      obtain ⟨value, found⟩ := ih more
      refine ⟨value, ?_⟩
      rw [Value.at?_append, place]
      exact found

theorem locateMember_congr {changed : Object} (same : changed.outline = object.outline) :
    locateMember changed segment = locateMember object segment := by
  rw [locateMember, locateMember, Table.find_of_outline same]

theorem isChannel_congr {changed : Object} (same : changed.outline = object.outline) :
    access.isChannel changed segment = access.isChannel object segment := by
  rw [isChannel, isChannel, ← changed.isMaterial_outline, same, object.isMaterial_outline]

/-- What is found where a change does not lead through: what was there, perhaps with the change
inside it. -/
theorem at?_put_or {value inner : Value} {written : Location} (new : Value)
    (found : value.at? location = some inner) (around : written <+: location → written = location) :
    (∃ rest, written = location ++ rest ∧
      (value.put written new).at? location = some (inner.put rest new)) ∨
    location.Apart written ∧ (value.put written new).at? location = some inner := by
  by_cases inside : location <+: written
  · obtain ⟨rest, rfl⟩ := inside
    exact Or.inl ⟨rest, rfl, Value.at?_put_append found rest new⟩
  · have apart : Location.Apart written location :=
      ⟨fun through => inside (around through ▸ List.prefix_rfl), inside⟩
    exact Or.inr ⟨apart.symm, (Value.at?_put_of_apart apart value new).trans found⟩

theorem locateSlot_put {changed : Object} {new : Value} {written : Location}
    (located : access.locateSlot object segment = some location)
    (around : written <+: location → written = location)
    (put : (Value.object object).put written new = .object changed)
    (same : changed.outline = object.outline) :
    access.locateSlot changed segment = some location := by
  have still : ((Value.object object).at? location).isSome = true →
      ((Value.object changed).at? location).isSome = true := by
    intro there
    obtain ⟨inner, found⟩ := Option.isSome_iff_exists.mp there
    rw [← put]
    obtain ⟨rest, -, now⟩ | ⟨-, now⟩ := at?_put_or new found around <;>
    · rw [now]
      rfl
  cases routed : access.isChannel object segment with
  | true =>
      obtain ⟨index, placed, rfl, there⟩ := (locateSlot_of_channel routed).mp located
      refine (locateSlot_of_channel ((isChannel_congr same).trans routed)).mpr
        ⟨index, ?_, rfl, still there⟩
      rw [← changed.channelIndex?_outline, same, object.channelIndex?_outline]
      exact placed
  | false =>
      obtain ⟨placed, there⟩ := (locateSlot_of_member routed).mp located
      exact (locateSlot_of_member ((isChannel_congr same).trans routed)).mpr
        ⟨(locateMember_congr same).trans placed, still there⟩

/-- A path that does not lead through a slot leads where it led before the slot was changed. -/
theorem locateSegments_put {segments : List Segment} {changed : Object} {new : Value}
    {written : Location} (located : access.locateSegments last object segments = some location)
    (inside : written ≠ []) (around : written <+: location → written = location)
    (put : (Value.object object).put written new = .object changed) :
    access.locateSegments last changed segments = some location := by
  induction segments generalizing object changed written location with
  | nil =>
      obtain ⟨_, made, same⟩ := Value.put_object object inside new
      cases put.symm.trans made
      exact locateSlot_put located around put same
  | cons segment rest ih =>
      obtain ⟨_, made, same⟩ := Value.put_object object inside new
      cases put.symm.trans made
      obtain ⟨first, inner, further, placed, found, more, rfl⟩ :=
        locateSegments_cons_eq_some_iff.mp located
      have longer : first ++ further ≠ first := by
        simpa using locateSegments_ne_nil more
      have aroundFirst : written <+: first → written = first := by
        intro through
        have whole := around (through.trans (List.prefix_append first further))
        rw [whole] at through
        exact absurd (through.eq_of_length_le (by simp)) longer
      have placed' := (locateMember_congr same).trans placed
      rcases at?_put_or new found aroundFirst with ⟨deeper, rfl, now⟩ | ⟨-, now⟩
      · -- The change is inside the object that the segment leads to.
        have below : deeper ≠ [] := by
          rintro rfl
          rw [List.append_nil] at around
          exact longer (around (List.prefix_append first further)).symm
        have aroundRest : deeper <+: further → deeper = further := fun through =>
          List.append_cancel_left (around ((List.prefix_append_right_inj first).mpr through))
        obtain ⟨inner', made', -⟩ := Value.put_object inner below new
        rw [put, made'] at now
        exact locateSegments_cons_eq_some_iff.mpr
          ⟨first, inner', further, placed', now, ih more below aroundRest made', rfl⟩
      · rw [put] at now
        exact locateSegments_cons_eq_some_iff.mpr
          ⟨first, inner, further, placed', now, more, rfl⟩

/-! ### Writing -/

/-- What a write finds at a location and puts there: the slot is declared and can be written, the
token converts for it, and absence goes only where its type accepts it. Shader channels take
whatever converts. -/
structure Written (access : Access) (object : Object) (path : String) (token : Token)
    (location : Location) (declared : ValueType) (old new : Value) : Prop where
  found : (Value.object object).at? location = some old
  declaration : (Value.object object).declarationAt? none location = some ⟨declared, true⟩
  converted : (Coercion.coerce access.env path token declared (some old)).result = .ok new
  accepted : new.isNull = true →
    declared.acceptsAbsence = true ∨ ∃ index, location.getLast? = some (.channel index)

theorem convert_eq_ok_iff {token : Token} {declared : ValueType} {current new : Value} :
    (access.convert path token declared current).result = .ok new ↔
      (Coercion.coerce access.env path token declared (some current)).result = .ok new ∧
        (new.isNull = true → declared.acceptsAbsence = true) := by
  rw [convert, Traced.result_bind]
  refine bind_eq_ok_iff.trans ?_
  constructor
  · rintro ⟨value, converted, checked⟩
    split at checked
    · cases checked
    · rename_i allowed
      cases checked
      exact ⟨converted, by simpa using allowed⟩
  · rintro ⟨converted, accepts⟩
    refine ⟨new, converted, ?_⟩
    rw [if_neg (by simpa using accepts)]
    rfl

/-- Items can be written if what they are in can. -/
theorem writable_of_items {value : Value} {declaration found : Declaration} {indices : List Nat}
    (declared : value.declarationAt? (some declaration) (indices.map Place.item) = some found) :
    found.writable = declaration.writable := by
  induction indices generalizing value declaration with
  | nil =>
      cases declared
      rfl
  | cons index rest ih =>
      obtain ⟨inner, step, more⟩ := Option.bind_eq_some_iff.mp declared
      cases value with
      | list items =>
          cases next : (Value.list items).declaration? (some declaration) (.item index) with
          | none =>
              rw [next, declarationAt?_items_none] at more
              cases more
          | some element =>
              rw [next] at more
              obtain ⟨type, -, rfl⟩ := Option.map_eq_some_iff.mp next
              have kept := ih more
              exact kept
      | _ => cases step

theorem declarationAt?_member {index : Nat} {member : Member}
    (there : object.members[index]? = some member) (own : Option Declaration) (rest : Location) :
    (Value.object object).declarationAt? own (.member index :: rest) =
      member.value.declarationAt? (some ⟨member.declared, member.writable⟩) rest := by
  simp [Value.declarationAt?, Value.child?, Value.declaration?, there]

/-- Inside an object it does not matter how the object itself is declared. -/
theorem declarationAt?_object (inside : location ≠ []) (own : Option Declaration) :
    (Value.object object).declarationAt? own location =
      (Value.object object).declarationAt? none location := by
  obtain ⟨place, rest, rfl⟩ := List.exists_cons_of_ne_nil inside
  cases place <;> rfl

theorem put_member {index : Nat} {member : Member} (there : object.members[index]? = some member)
    (indices : List Nat) (new : Value) :
    (Value.object object).put (.member index :: indices.map Place.item) new =
      .object (object.setMember index (replace member.value indices new)) := by
  simp [Value.put, Value.child?, there, Value.setChild, replace_eq_put]

theorem getLast?_member (index : Nat) (indices : List Nat) (channel : Nat) :
    (Place.member index :: indices.map Place.item).getLast? ≠ some (.channel channel) := by
  intro last
  have inside := List.mem_of_getLast? last
  simp at inside

theorem writeMember_eq_ok_iff {token : Token} {changed : Object} :
    (access.writeMember path token object segment).result = .ok changed ↔
      ∃ location declared old new, locateMember object segment = some location ∧
        Written access object path token location declared old new ∧
        (Value.object object).put location new = .object changed := by
  rw [writeMember, Traced.result_bind]
  refine bind_eq_ok_iff.trans ?_
  simp only [Prod.exists, memberAt_eq_ok_iff, locateMember_eq_some_iff]
  constructor
  · rintro ⟨index, member, ⟨looked, there⟩, written⟩
    split at written
    · cases written
    · rename_i writable
      rw [Bool.not_eq_true, Bool.not_eq_false'] at writable
      rw [Traced.result_bind, Traced.result_ofExcept] at written
      obtain ⟨⟨declared, old⟩, walked, written⟩ := bind_eq_ok_iff.mp written
      rw [Traced.result_bind] at written
      obtain ⟨new, converted, done⟩ := bind_eq_ok_iff.mp written
      cases done
      obtain ⟨held, declaration⟩ := (element_eq_ok_iff true).mp walked
      obtain ⟨coerced, accepts⟩ := convert_eq_ok_iff.mp converted
      refine ⟨_, declared, old, new, ⟨index, looked, rfl⟩, ⟨?_, ?_, coerced, ?_⟩,
        put_member there segment.indices new⟩
      · exact (at?_member there _).trans held
      · rw [declarationAt?_member there, writable]
        exact declaration
      · exact fun absent => Or.inl (accepts absent)
  · rintro ⟨_, declared, old, new, ⟨index, looked, rfl⟩, written, put⟩
    obtain ⟨member, there, held⟩ := at?_member_eq_some_iff.mp written.found
    have declaration := written.declaration
    rw [declarationAt?_member there] at declaration
    have writable : true = member.writable := writable_of_items declaration
    have walked : element path segment member.declared member.value segment.indices =
        .ok (declared, old) :=
      (element_eq_ok_iff true).mpr ⟨held, by rwa [← writable] at declaration⟩
    have accepts : new.isNull = true → declared.acceptsAbsence = true := fun absent =>
      (written.accepted absent).resolve_right fun ⟨channel, last⟩ =>
        getLast?_member index segment.indices channel last
    have converted := convert_eq_ok_iff.mpr ⟨written.converted, accepts⟩
    rw [put_member there] at put
    cases put
    refine ⟨index, member, ⟨looked, there⟩, ?_⟩
    simp [← writable, walked, converted, Traced.result_map, Except.bind, Except.map]

theorem writeChannel_eq_ok_iff {token : Token} {name : String} {changed : Object} :
    (access.writeChannel path token object name).result = .ok changed ↔
      ∃ index declared old new, object.channelIndex? name = some index ∧
        Written access object path token [.channel index] declared old new ∧
        (Value.object object).put [.channel index] new = .object changed := by
  have slot : ∀ {index : Nat} {channel : Channel Value},
      (object.shader.bind fun shader => shader.channels[index]?) = some channel →
      (Value.object object).declarationAt? none [.channel index] = some ⟨channel.declared, true⟩ ∧
        ∀ new, (Value.object object).put [.channel index] new =
          .object (object.setChannel index new) := by
    intro index channel held
    obtain ⟨shader, material, there⟩ := Option.bind_eq_some_iff.mp held
    simp [Value.declarationAt?, Value.declaration?, Value.child?, Value.put, Value.setChild,
      material, there]
  have result : (access.writeChannel path token object name).result =
      ((channelAt path object name).bind fun entry =>
        (Coercion.coerce access.env path token entry.2.declared
          (some entry.2.value)).result.map fun value => object.setChannel entry.1 value) := by
    simp [writeChannel, Traced.result_map, Except.bind]
  rw [result]
  refine bind_eq_ok_iff.trans ?_
  simp only [Prod.exists, channelAt_eq_ok_iff, map_eq_ok_iff]
  constructor
  · rintro ⟨index, channel, ⟨placed, there⟩, new, converted, rfl⟩
    exact ⟨index, channel.declared, channel.value, new, placed,
      ⟨at?_channel_eq_some_iff.mpr ⟨channel, there, rfl⟩, (slot there).1, converted,
        fun _ => Or.inr ⟨index, rfl⟩⟩, (slot there).2 new⟩
  · rintro ⟨index, declared, old, new, placed, written, put⟩
    obtain ⟨channel, there, rfl⟩ := at?_channel_eq_some_iff.mp written.found
    have declaration := (slot there).1.symm.trans written.declaration
    cases declaration
    rw [(slot there).2 new] at put
    cases put
    exact ⟨index, channel, ⟨placed, there⟩, new, written.converted, rfl⟩

theorem writeSlot_eq_ok_iff {token : Token} {changed : Object} :
    (access.writeSlot path token object segment).result = .ok changed ↔
      ∃ location declared old new, access.locateSlot object segment = some location ∧
        Written access object path token location declared old new ∧
        (Value.object object).put location new = .object changed := by
  have there : ∀ {location declared old new},
      Written access object path token location declared old new →
        ((Value.object object).at? location).isSome = true := by
    intro location declared old new written
    rw [written.found]
    rfl
  rw [writeSlot]
  cases routed : access.isChannel object segment with
  | true =>
      simp only [if_true, writeChannel_eq_ok_iff, locateSlot_of_channel routed]
      constructor
      · rintro ⟨index, declared, old, new, placed, written, put⟩
        exact ⟨_, declared, old, new, ⟨index, placed, rfl, there written⟩, written, put⟩
      · rintro ⟨_, declared, old, new, ⟨index, placed, rfl, -⟩, written, put⟩
        exact ⟨index, declared, old, new, placed, written, put⟩
  | false =>
      simp only [Bool.false_eq_true, if_false, writeMember_eq_ok_iff, locateSlot_of_member routed]
      constructor
      · rintro ⟨location, declared, old, new, placed, written, put⟩
        exact ⟨location, declared, old, new, ⟨placed, there written⟩, written, put⟩
      · rintro ⟨location, declared, old, new, ⟨placed, -⟩, written, put⟩
        exact ⟨location, declared, old, new, placed, written, put⟩

/-- A write inside an object is a write from where the object is, and the other way round. -/
theorem written_append {inner : Object} {first further : Location} {token : Token}
    {declared : ValueType} {old new : Value}
    (place : (Value.object object).at? first = some (.object inner)) (inside : further ≠ []) :
    Written access object path token (first ++ further) declared old new ↔
      Written access inner path token further declared old new := by
  have found := Value.at?_append (.object object) first further
  rw [place, Option.bind_some] at found
  have declaration := Value.declarationAt?_append none first further place
  rw [declarationAt?_object inside] at declaration
  have last : (first ++ further).getLast? = further.getLast? := by
    rw [List.getLast?_append, Option.or_eq_left_of_isSome]
    simpa using inside
  constructor
  · intro written
    exact ⟨found.symm.trans written.found, declaration.symm.trans written.declaration,
      written.converted, by simpa only [last] using written.accepted⟩
  · intro written
    exact ⟨found.trans written.found, declaration.trans written.declaration,
      written.converted, by simpa only [last] using written.accepted⟩

theorem writeSegments_eq_ok_iff {token : Token} {segments : List Segment} {changed : Object} :
    (access.writeSegments path token last object segments).result = .ok changed ↔
      ∃ location declared old new, access.locateSegments last object segments = some location ∧
        Written access object path token location declared old new ∧
        (Value.object object).put location new = .object changed := by
  induction segments generalizing object changed with
  | nil => exact writeSlot_eq_ok_iff
  | cons segment rest ih =>
      rw [writeSegments, Traced.result_bind]
      refine bind_eq_ok_iff.trans ?_
      simp only [Traced.result_bind, Traced.result_ofExcept, Prod.exists, memberAt_eq_ok_iff,
        locateSegments_cons_eq_some_iff, locateMember_eq_some_iff]
      constructor
      · rintro ⟨index, member, ⟨looked, there⟩, walked⟩
        obtain ⟨inner, step, walked⟩ := bind_eq_ok_iff.mp walked
        obtain ⟨changed', done, same⟩ := bind_eq_ok_iff.mp walked
        cases same
        obtain ⟨further, declared, old, new, located, written, put⟩ := ih.mp done
        have place := (nested_eq_ok_iff there).mp step
        refine ⟨_, declared, old, new,
          ⟨_, inner, further, ⟨index, looked, rfl⟩, place, located, rfl⟩,
          (written_append place (locateSegments_ne_nil located)).mpr written, ?_⟩
        rw [Value.put_append place, put, put_member there]
      · rintro ⟨_, declared, old, new, ⟨_, inner, further, ⟨index, looked, rfl⟩, place, located,
          rfl⟩, written, put⟩
        obtain ⟨member, there, -⟩ := at?_member_eq_some_iff.mp place
        have inside := locateSegments_ne_nil located
        obtain ⟨changed', put', -⟩ := Value.put_object inner inside new
        rw [Value.put_append place, put', put_member there] at put
        cases put
        have done := ih.mpr ⟨further, declared, old, new, located,
          (written_append place inside).mp written, put'⟩
        refine ⟨index, member, ⟨looked, there⟩, bind_eq_ok_iff.mpr ⟨inner, ?_, ?_⟩⟩
        · exact (nested_eq_ok_iff there).mpr place
        · exact bind_eq_ok_iff.mpr ⟨changed', done, rfl⟩

/-- A write succeeds exactly if the path leads to a slot that takes the token, and then the result
is the object with the slot changed. -/
theorem write_eq_ok_iff {token : Token} {changed : Object} :
    (access.write object path token).result = .ok changed ↔
      ∃ location declared old new, access.locate object path = some location ∧
        Written access object path token location declared old new ∧
        (Value.object object).put location new = .object changed := by
  rw [write, Traced.result_bind, Traced.result_ofExcept, locate]
  cases Path.parse path with
  | error report => simp [Except.bind, Except.toOption]
  | ok parsed =>
      simp only [Except.bind, Except.toOption, Option.bind_some]
      exact writeSegments_eq_ok_iff

theorem locate_eq_some_iff :
    access.locate object path = some location ↔ ∃ parsed, Path.parse path = .ok parsed ∧
      access.locateSegments parsed.last object parsed.parents = some location := by
  rw [locate]
  cases Path.parse path <;> simp [Except.toOption]

theorem locate_ne_nil (located : access.locate object path = some location) : location ≠ [] := by
  obtain ⟨parsed, -, walked⟩ := Option.bind_eq_some_iff.mp located
  exact locateSegments_ne_nil walked

theorem locate_put {changed : Object} {new : Value} {written : Location}
    (located : access.locate object path = some location) (inside : written ≠ [])
    (around : written <+: location → written = location)
    (put : (Value.object object).put written new = .object changed) :
    access.locate changed path = some location := by
  obtain ⟨parsed, read, walked⟩ := Option.bind_eq_some_iff.mp located
  exact Option.bind_eq_some_iff.mpr ⟨parsed, read, locateSegments_put walked inside around put⟩

end

/-- A write that succeeds goes to the location of its path. There was a value to read, and what the
token converts to for the declared type of the slot is what is read after it. Putting the old value
back gives the old object, so nothing else has changed; and along every path that leads apart from
the slot, the same is read as before. -/
theorem write_then_read {access : Access} {object changed : Object} {path : String} {token : Token}
    (done : (access.write object path token).result = .ok changed) :
    ∃ location declared old new, access.locate object path = some location ∧
      (Value.object object).declarationAt? none location = some ⟨declared, true⟩ ∧
      (Value.object object).at? location = some old ∧
      (access.read object path).result = .ok old ∧
      (Coercion.coerce access.env path token declared (some old)).result = .ok new ∧
      (access.read changed path).result = .ok new ∧
      (Value.object changed).put location old = .object object ∧
      (∀ other, location.Apart other →
        (Value.object changed).at? other = (Value.object object).at? other) ∧
      ∀ other elsewhere, access.locate object other = some elsewhere → location.Apart elsewhere →
        (access.read changed other).result = (access.read object other).result := by
  obtain ⟨location, declared, old, new, located, written, put⟩ := write_eq_ok_iff.mp done
  have inside := locate_ne_nil located
  have again : (Value.object changed).at? location = some new := by
    rw [← put]
    exact Value.at?_put_self written.found new
  have elsewhere : ∀ other, location.Apart other →
      (Value.object changed).at? other = (Value.object object).at? other := by
    intro other apart
    rw [← put]
    exact Value.at?_put_of_apart apart _ new
  refine ⟨location, declared, old, new, located, written.declaration, written.found,
    read_eq_ok_iff.mpr ⟨location, located, written.found⟩, written.converted, ?_, ?_, elsewhere,
    ?_⟩
  · exact read_eq_ok_iff.mpr ⟨location, locate_put located inside (fun _ => rfl) put, again⟩
  · rw [← put, Value.put_put]
    exact Value.put_eq_self written.found
  · intro other place leads apart
    have leads' := locate_put leads inside (fun through => absurd through apart.1) put
    obtain ⟨parsed, -, walked⟩ := Option.bind_eq_some_iff.mp leads
    obtain ⟨value, found⟩ := exists_at?_of_locateSegments walked
    have before := read_eq_ok_iff.mpr ⟨place, leads, found⟩
    have after := read_eq_ok_iff.mpr ⟨place, leads', (elsewhere place apart).trans found⟩
    exact after.trans before.symm

/-! ### A dimmer and its channel -/

/-- A material with two members whose names differ in case only. -/
def dimmer (level : Int) : Object :=
  ⟨⟨"Dimmer"⟩, [⟨"Levels", .hidden, .list .int, true, .list [.int 1]⟩,
    ⟨"levels", .property, .list .int, true, .list [.int 10, .int level]⟩],
    some ⟨"Glow", [⟨"_Level", .float, .null⟩]⟩⟩

theorem write_dimmer {access : Access}
    (leads : access.locate (dimmer 20) "levels[1]" = some [.member 1, .item 1]) :
    (access.write (dimmer 20) "levels[1]" (.int 30)).result = .ok (dimmer 30) := by
  have converted : (Coercion.coerce access.env "levels[1]" (.int 30) .int (some (.int 20))).result =
      .ok (.int 30) := by
    rw [Coercion.coerce]
    rfl
  refine write_eq_ok_iff.mpr ⟨[.member 1, .item 1], .int, .int 20, .int 30, leads,
    ⟨rfl, rfl, converted, ?_⟩, rfl⟩
  rintro ⟨⟩

/-- An item is written through the exact one of two names, and the shader channel is not
disturbed. -/
theorem write_then_read_of_dimmer :
    (({} : Access).write (dimmer 20) "levels[1]" (.int 30)).result = .ok (dimmer 30) ∧
      (({} : Access).read (dimmer 30) "_Level").result =
        (({} : Access).read (dimmer 20) "_Level").result := by
  have there : ({} : Access).locate (dimmer 20) "levels[1]" = some [.member 1, .item 1] := by
    decide +kernel
  obtain ⟨location, declared, old, new, located, -, -, -, -, -, -, -, frame⟩ :=
    write_then_read (write_dimmer there)
  cases located.symm.trans there
  have channel : ({} : Access).locate (dimmer 20) "_Level" = some [.channel 0] := by
    decide +kernel
  exact ⟨write_dimmer there, frame "_Level" [.channel 0] channel ⟨by decide, by decide⟩⟩

end SceneEdit.Access
