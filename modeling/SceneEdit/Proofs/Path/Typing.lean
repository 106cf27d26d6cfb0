import SceneEdit.Path.Access
import SceneEdit.Proofs.Coercion.Typing

/-!
# Writes are well typed

Writing along a path keeps an object well typed. Two walks go in step: one through the values, and
one through the types declared for them, so the value put at the end of the first has the type at
the end of the second, and everything around it is as it was.

Objects inside slots of a foreign type need not be well typed, and a path may lead through them. So
what is shown of an object on the way is that it stays well typed if it was.
-/

namespace SceneEdit.Access

open ValueType (Fillable)

/-! ### Items inside a value -/

theorem item_eq_ok {path name : String} {value inner : Value} {index : Nat}
    (found : item path name value index = .ok inner) :
    ∃ items, value = .list items ∧ items[index]? = some inner := by
  unfold item at found
  split at found
  · rename_i items
    split at found
    · rename_i there
      cases found
      exact ⟨items, rfl, there⟩
    · cases found
  · cases found
  · cases found

theorem typed_items {items : List Value} {type element : ValueType}
    (typed : Value.Typed Fillable (.list items) type) (collection : type.element? = some element) :
    ∀ item ∈ items, item.Typed Fillable element := by
  generalize value : Value.list items = v at typed
  induction typed with
  | list all =>
      cases value
      cases collection
      exact all
  | array filled all =>
      cases value
      cases collection
      exact all
  | present typed ih => exact ih collection value
  | foreign v name => cases collection
  | _ => cases value

/-- A list stays well typed if as many items of the same element type take the place of its own;
where the type has no elements it is foreign. -/
theorem typed_of_items {items items' : List Value} {type : ValueType}
    (typed : Value.Typed Fillable (.list items) type) (count : items'.length = items.length)
    (kept : ∀ element, type.element? = some element →
      (∀ item ∈ items, item.Typed Fillable element) →
        ∀ item ∈ items', item.Typed Fillable element) :
    Value.Typed Fillable (.list items') type := by
  generalize value : Value.list items = v at typed
  induction typed with
  | list all =>
      cases value
      exact .list (kept _ rfl all)
  | array filled all =>
      cases value
      exact .array (count.trans filled) (kept _ rfl all)
  | present typed ih => exact .present (ih kept value)
  | foreign v name => exact .foreign _ name
  | _ => cases value

/-- Whatever types an item has, the value put in its place has too: then so has the whole. -/
theorem replace_typed {path name : String} {indices : List Nat} {value old new : Value}
    {type : ValueType} (typed : value.Typed Fillable type)
    (there : items path name value indices = .ok old)
    (kept : ∀ type, old.Typed Fillable type → new.Typed Fillable type) :
    (replace value indices new).Typed Fillable type := by
  induction indices generalizing value type with
  | nil =>
      cases there
      exact kept type typed
  | cons index rest ih =>
      obtain ⟨inner, found, more⟩ := bind_eq_ok_iff.mp there
      obtain ⟨items, rfl, place⟩ := item_eq_ok found
      apply typed_of_items typed (List.length_modify _ _ _)
      intro element _ all item inside
      rcases mem_or_eq_of_mem_modify inside with same | ⟨before, place', rfl⟩
      · exact all item same
      · rw [place] at place'
        cases place'
        exact ih (all inner (List.mem_of_getElem? place)) more

/-- The walk through the declared types ends at the type of the value that the walk through the
values ends at, and a value of that type may take its place. -/
theorem element_typed {path : String} {segment : Segment} {indices : List Nat}
    {type declared : ValueType} {value current : Value} (typed : value.Typed Fillable type)
    (there : element path segment type value indices = .ok (declared, current)) :
    current.Typed Fillable declared ∧ (type.Fillable → declared.Fillable) ∧
      ∀ new : Value, new.Typed Fillable declared →
        (replace value indices new).Typed Fillable type := by
  induction indices generalizing type value with
  | nil =>
      cases there
      exact ⟨typed, id, fun new fits => fits⟩
  | cons index rest ih =>
      rw [element] at there
      split at there
      · cases there
      · rename_i inner collection
        obtain ⟨next, found, more⟩ := bind_eq_ok_iff.mp there
        obtain ⟨items, rfl, place⟩ := item_eq_ok found
        have all := typed_items typed collection
        obtain ⟨fits, fillable, whole⟩ := ih (all next (List.mem_of_getElem? place)) more
        refine ⟨fits, fun given => fillable (given.element collection), fun new fits' => ?_⟩
        apply typed_of_items typed (List.length_modify _ _ _)
        intro element same _ item inside
        cases collection.symm.trans same
        rcases mem_or_eq_of_mem_modify inside with old | ⟨before, place', rfl⟩
        · exact all item old
        · rw [place] at place'
          cases place'
          exact whole new fits'

/-! ### Objects on the way -/

/-- An object stays of its type, and well typed if it was. -/
def Preserved (object changed : Object) : Prop :=
  changed.typeName = object.typeName ∧ (object.Typed Fillable → changed.Typed Fillable)

theorem Preserved.typed {object changed : Object} (kept : Preserved object changed)
    {type : ValueType}
    (typed : Value.Typed Fillable (.object object) type) :
    Value.Typed Fillable (.object changed) type := by
  generalize value : Value.object object = v at typed
  induction typed with
  | struct same permit each =>
      cases value
      have whole := kept.2 fun slot inside => ⟨permit slot inside, each slot inside⟩
      exact Value.typed_struct_iff.mpr ⟨kept.1.trans same, whole⟩
  | reference typed ih => exact .reference (by cases value; exact ih rfl)
  | present typed ih => exact .present (ih value)
  | foreign v name => exact .foreign _ name
  | _ => cases value

theorem Preserved.setMember {object : Object} {index : Nat} {member : Member} {value : Value}
    (there : object.members[index]? = some member)
    (fits : member.value.Typed Fillable member.declared → member.declared.Fillable →
      value.Typed Fillable member.declared) :
    Preserved object (object.setMember index value) := by
  refine ⟨rfl, fun typed => typed.setMember there ?_⟩
  obtain ⟨fillable, old⟩ := typed _ (Table.slot_of_member (List.mem_of_getElem? there))
  exact fits old fillable

theorem memberAt_gives (path : String) (object : Object) (name : String) :
    (memberAt path object name).Gives fun found => object.members[found.1]? = some found.2 := by
  refine (Traced.Gives.any _).bind fun index _ => ?_
  split
  · rename_i member there
    exact .pure there
  · exact .throw _

theorem nested_eq_ok {path : String} {segment : Segment} {value : Value} {inner : Object}
    (found : nested path segment value = .ok inner) :
    items path segment.name value segment.indices = .ok (.object inner) := by
  obtain ⟨item, there, object⟩ := bind_eq_ok_iff.mp found
  cases item <;> cases object
  exact there

theorem channelAt_eq_ok {path name : String} {object : Object} {index : Nat}
    {channel : Channel Value} (found : channelAt path object name = .ok (index, channel)) :
    ∃ shader, object.shader = some shader ∧ shader.channels[index]? = some channel := by
  unfold channelAt at found
  dsimp only at found
  split at found
  · rename_i entry located
    cases found
    obtain ⟨shader, material, more⟩ := Option.bind_eq_some_iff.mp located
    obtain ⟨place, -, rest⟩ := Option.bind_eq_some_iff.mp more
    obtain ⟨there, channel', done⟩ := Option.bind_eq_some_iff.mp rest
    cases done
    exact ⟨shader, material, channel'⟩
  · cases found

/-! ### Writing -/

section

variable {access : Access} (templates : access.env.catalog.Typed Fillable)
include templates

theorem convert_typed (path : String) (token : Token) (declared : ValueType) (current : Value) :
    (access.convert path token declared current).Gives fun value =>
      declared.Fillable → current.Typed Fillable declared → value.Typed Fillable declared := by
  have converted : (Coercion.coerce access.env path token declared (some current)).Gives
      fun value => declared.Fillable → current.Typed Fillable declared →
        value.Typed Fillable declared := fun value given fillable typed =>
    Coercion.coerce_typed templates path token declared _ fillable (.of_typed typed) value given
  refine converted.bind fun value fits => ?_
  dsimp only
  split
  · exact (Traced.Gives.any _).bind fun _ _ => .pure fits
  · exact .pure fits

theorem writeChannel_preserves (path : String) (token : Token) (object : Object) (name : String) :
    (access.writeChannel path token object name).Gives (Preserved object) := by
  refine (Traced.Gives.any _).bind fun _ _ => ?_
  refine Traced.Gives.bind (.ofExcept fun found located => located)
    fun (index, channel) located => ?_
  obtain ⟨shader, material, there⟩ := channelAt_eq_ok located
  have converted : (Coercion.coerce access.env path token channel.declared
      (some channel.value)).Gives fun value =>
        object.Typed Fillable → value.Typed Fillable channel.declared := by
    intro value given typed
    obtain ⟨fillable, fits⟩ :=
      typed _ (Table.slot_of_channel material (List.mem_of_getElem? there))
    exact Coercion.coerce_typed templates path token _ _ fillable (.of_typed fits) value given
  refine converted.bind fun value fits => .pure ⟨rfl, fun typed => ?_⟩
  exact typed.setChannel material there (fits typed)

theorem writeMember_preserves (path : String) (token : Token) (object : Object)
    (segment : Segment) :
    (access.writeMember path token object segment).Gives (Preserved object) := by
  refine (memberAt_gives path object segment.name).bind fun place there => ?_
  have written : ((.ofExcept (element path segment place.2.declared place.2.value segment.indices) :
      Attempt (ValueType × Value)) >>= fun found =>
      access.convert path token found.1 found.2 >>= fun value =>
        pure (object.setMember place.1 (replace place.2.value segment.indices value))).Gives
      (Preserved object) := by
    refine Traced.Gives.bind (.ofExcept fun found walked => walked) fun found walked => ?_
    refine (convert_typed templates path token found.1 found.2).bind fun value fits => .pure ?_
    refine .setMember there fun typed fillable => ?_
    obtain ⟨held, inner, whole⟩ := element_typed typed walked
    exact whole value (fits (inner fillable) held)
  dsimp only
  split
  · exact (Traced.Gives.any _).bind fun _ _ => written
  · exact written

theorem writeSlot_preserves (path : String) (token : Token) (object : Object) (segment : Segment) :
    (access.writeSlot path token object segment).Gives (Preserved object) := by
  rw [writeSlot]
  split
  · exact writeChannel_preserves templates path token object _
  · exact writeMember_preserves templates path token object segment

theorem writeSegments_preserves (path : String) (token : Token) (last : Segment)
    (segments : List Segment) (object : Object) :
    (access.writeSegments path token last object segments).Gives (Preserved object) := by
  induction segments generalizing object with
  | nil => exact writeSlot_preserves templates path token object last
  | cons segment rest ih =>
      refine (memberAt_gives path object segment.name).bind fun (index, member) there => ?_
      refine Traced.Gives.bind (.ofExcept fun inner found => found) fun inner found => ?_
      refine (ih inner).bind fun changed kept => .pure ?_
      refine .setMember there fun typed _ => ?_
      exact replace_typed typed (nested_eq_ok found) fun _ => kept.typed

end

/-- A write that succeeds leaves an object of the same type that is as well typed as the one before,
whatever the path, the token and the assets, if the templates of the catalog are. -/
theorem write_typed {access : Access} {root changed : Object} {path : String} {token : Token}
    (templates : access.env.catalog.Typed Fillable) (typed : root.Typed Fillable)
    (written : (access.write root path token).result = .ok changed) :
    changed.typeName = root.typeName ∧ changed.Typed Fillable := by
  have kept : (access.write root path token).Gives (Preserved root) :=
    (Traced.Gives.any _).bind fun parsed _ =>
      writeSegments_preserves templates path token parsed.last parsed.parents root
  obtain ⟨same, whole⟩ := kept changed written
  exact ⟨same, whole typed⟩

/-! ### A lamp and its bulb -/

def bulb (watts : Int) : Object :=
  ⟨⟨"Bulb"⟩, [⟨"watts", .property, .int, true, .int watts⟩], none⟩

def lamp (watts : Int) : Object :=
  ⟨⟨"Lamp"⟩, [⟨"bulb", .property, .struct ⟨"Bulb"⟩, true, .object (bulb watts)⟩], none⟩

/-- Access where bulbs have forty watts unless said otherwise. -/
def lampAccess : Access :=
  { env := { catalog := { entries := [⟨⟨⟨"Bulb"⟩, "Game", .value⟩, some (bulb 40)⟩] } } }

theorem bulb_typed {watts : Int} (low : 0 ≤ watts) (high : watts < 100) :
    (bulb watts).Typed Fillable := by
  intro slot inside
  obtain rfl : slot = (.int, .int watts) := by simpa [bulb, Table.slots] using inside
  refine ⟨trivial, .int ?_ ?_⟩ <;> rw [show twoTo 31 = 2147483648 from rfl] <;> omega

theorem parse_bulb : Path.parse "bulb" = .ok ⟨[], ⟨"bulb", []⟩⟩ := by
  have segment : Path.segment? ['b', 'u', 'l', 'b'] = some ⟨"bulb", []⟩ := by
    change (Path.indices? []).map (fun indices => (⟨"bulb", indices⟩ : Segment)) = _
    rw [Path.indices?]
    rfl
  have whole : Path.parseChars? ['b', 'u', 'l', 'b'] = some ⟨[], ⟨"bulb", []⟩⟩ := by
    rw [Path.parseChars?]
    rw [show ['b', 'u', 'l', 'b'].splitOn '.' = [['b', 'u', 'l', 'b']] by decide]
    simp [segment, Path.ofSegments?]
  rw [Path.parse, show Text.trimmed "bulb".toList = ['b', 'u', 'l', 'b'] by decide]
  simp [whole]

theorem write_bulb : (lampAccess.write (lamp 60) "bulb" .null).result = .ok (lamp 40) := by
  have converted : (lampAccess.convert "bulb" .null (.struct ⟨"Bulb"⟩) (.object (bulb 60))).result =
      .ok (.object (bulb 40)) := by
    rw [convert, Coercion.coerce]
    rfl
  rw [write, Traced.result_bind, Traced.result_ofExcept, parse_bulb]
  change (lampAccess.convert "bulb" .null (.struct ⟨"Bulb"⟩) (.object (bulb 60)) >>= fun value =>
    pure ((lamp 60).setMember 0 value)).result = _
  rw [Traced.result_bind, converted]
  rfl

/-- Writing nothing into a slot for an object puts the template there. -/
theorem write_typed_of_template :
    (lampAccess.write (lamp 60) "bulb" .null).result = .ok (lamp 40) ∧
      (lamp 40).Typed Fillable := by
  have templates : lampAccess.env.catalog.Typed Fillable := by
    intro entry inside template given
    obtain rfl : entry = ⟨⟨⟨"Bulb"⟩, "Game", .value⟩, some (bulb 40)⟩ := by
      simpa [lampAccess] using inside
    cases given
    exact ⟨rfl, bulb_typed (by omega) (by omega)⟩
  have typed : (lamp 60).Typed Fillable := by
    intro slot inside
    obtain rfl : slot = (.struct ⟨"Bulb"⟩, .object (bulb 60)) := by
      simpa [lamp, Table.slots] using inside
    exact ⟨trivial, Value.typed_struct_iff.mpr ⟨rfl, bulb_typed (by omega) (by omega)⟩⟩
  exact ⟨write_bulb, (write_typed templates typed write_bulb).2⟩

end SceneEdit.Access
