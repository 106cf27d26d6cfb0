import SceneEdit.Proofs.Path.ReadWrite
import SceneEdit.Session.Write

/-!
# Writes that lead apart

Two writes whose paths lead apart do not notice each other. Whether a write succeeds, and how it
fails, is decided by the outlines of the objects on its path, by the declared types of its slot, and
by the value in the slot (`writeSegments_failure_put`): a write elsewhere changes none of these. So
each write comes to the same in either order as alone, and since what is put at locations that lead
apart may be put in any order (`Value.put_comm`), both orders end in the same object.
-/

namespace SceneEdit

/-- The failure of a result that is one. -/
def failureOf? {ε α : Type} : Except ε α → Option ε
  | .ok _ => none
  | .error e => some e

theorem failureOf?_map {ε α β : Type} (f : α → β) (result : Except ε α) :
    failureOf? (result.map f) = failureOf? result := by
  cases result <;> rfl

theorem failureOf?_bind_congr {ε α β γ : Type} {result : Except ε α} {f : α → Except ε β}
    {g : α → Except ε γ} (same : ∀ a, failureOf? (f a) = failureOf? (g a)) :
    failureOf? (result.bind f) = failureOf? (result.bind g) := by
  cases result with
  | error e => rfl
  | ok a => exact same a

theorem failureOf?_eq_some_iff {ε α : Type} {result : Except ε α} {e : ε} :
    failureOf? result = some e ↔ result = .error e := by
  cases result <;> simp [failureOf?]

namespace Access

variable {access : Access} {object changed : Object} {path : String} {token : Token}
variable {segment last : Segment} {location : Location} {index : Nat}

/-! ### What the outcome of a write depends on -/

/-- The walk through declared types only looks at whether the items are there. -/
theorem element_congr {value value' current : Value} {indices : List Nat}
    (found : value.at? (indices.map Place.item) = some current)
    (found' : value'.at? (indices.map Place.item) = some current) (declared : ValueType) :
    element path segment declared value indices = element path segment declared value' indices := by
  induction indices generalizing value value' declared with
  | nil =>
      cases found
      cases found'
      rfl
  | cons index rest ih =>
      obtain ⟨next, step, more⟩ := Option.bind_eq_some_iff.mp found
      obtain ⟨next', step', more'⟩ := Option.bind_eq_some_iff.mp found'
      simp only [element]
      split
      · rfl
      · rename_i inner collection
        rw [item_eq_ok_iff.mpr step, item_eq_ok_iff.mpr step']
        exact ih more more' inner

theorem writeMember_failure_congr (same : changed.outline = object.outline)
    (placed : locateMember object segment = some location)
    (there : ((Value.object object).at? location).isSome = true)
    (held : (Value.object changed).at? location = (Value.object object).at? location) :
    failureOf? (access.writeMember path token changed segment).result =
      failureOf? (access.writeMember path token object segment).result := by
  obtain ⟨index, looked, rfl⟩ := locateMember_eq_some_iff.mp placed
  obtain ⟨current, found⟩ := Option.isSome_iff_exists.mp there
  rw [found] at held
  obtain ⟨member, there, inside⟩ := at?_member_eq_some_iff.mp found
  obtain ⟨value, there'⟩ := Table.member_of_outline same there
  rw [at?_member there'] at held
  have looked' : (changed.find segment.name).result = .ok index := by
    rw [Table.find_of_outline same]
    exact looked
  have first : (memberAt path object segment.name).result = .ok (index, member) :=
    memberAt_eq_ok_iff.mpr ⟨looked, there⟩
  have first' : (memberAt path changed segment.name).result = .ok (index, { member with value }) :=
    memberAt_eq_ok_iff.mpr ⟨looked', there'⟩
  simp only [writeMember, Traced.result_bind, first, first', Except.bind,
    Table.typeName_of_outline same]
  split
  · rfl
  · simp only [Traced.result_bind, Traced.result_ofExcept, element_congr held inside]
    exact failureOf?_bind_congr fun _ => failureOf?_bind_congr fun _ => rfl

theorem writeChannel_failure_congr {name : String} (same : changed.outline = object.outline)
    (placed : object.channelIndex? name = some index)
    (there : ((Value.object object).at? [.channel index]).isSome = true)
    (held : (Value.object changed).at? [.channel index] =
      (Value.object object).at? [.channel index]) :
    failureOf? (access.writeChannel path token changed name).result =
      failureOf? (access.writeChannel path token object name).result := by
  obtain ⟨current, found⟩ := Option.isSome_iff_exists.mp there
  rw [found] at held
  obtain ⟨channel, there, rfl⟩ := at?_channel_eq_some_iff.mp found
  obtain ⟨value, there'⟩ := Table.channel_of_outline same there
  obtain ⟨channel', again, unchanged⟩ := at?_channel_eq_some_iff.mp held
  cases there'.symm.trans again
  have placed' : changed.channelIndex? name = some index := by
    rw [← changed.channelIndex?_outline, same, object.channelIndex?_outline]
    exact placed
  have first : channelAt path object name = .ok (index, channel) :=
    channelAt_eq_ok_iff.mpr ⟨placed, there⟩
  have first' : channelAt path changed name = .ok (index, { channel with value }) :=
    channelAt_eq_ok_iff.mpr ⟨placed', there'⟩
  have kept : value = channel.value := unchanged
  simp only [writeChannel, Traced.result_bind, Traced.result_tell, Traced.result_ofExcept, first,
    first', Except.bind, kept]
  exact failureOf?_bind_congr fun _ => rfl

theorem writeSlot_failure_congr (same : changed.outline = object.outline)
    (placed : access.locateSlot object segment = some location)
    (held : (Value.object changed).at? location = (Value.object object).at? location) :
    failureOf? (access.writeSlot path token changed segment).result =
      failureOf? (access.writeSlot path token object segment).result := by
  rw [writeSlot, writeSlot, isChannel_congr same]
  cases routed : access.isChannel object segment with
  | true =>
      obtain ⟨index, channel, rfl, there⟩ := (locateSlot_of_channel routed).mp placed
      exact writeChannel_failure_congr same channel there held
  | false =>
      obtain ⟨member, there⟩ := (locateSlot_of_member routed).mp placed
      exact writeMember_failure_congr same member there held

/-- Past a segment that leads to an object, a write comes to what it comes to inside. -/
theorem writeSegments_cons_failure {first : Location} {inner : Object} {rest : List Segment}
    (placed : locateMember object segment = some first)
    (found : (Value.object object).at? first = some (.object inner)) :
    failureOf? (access.writeSegments path token last object (segment :: rest)).result =
      failureOf? (access.writeSegments path token last inner rest).result := by
  obtain ⟨index, looked, rfl⟩ := locateMember_eq_some_iff.mp placed
  obtain ⟨member, there, -⟩ := at?_member_eq_some_iff.mp found
  have step : (memberAt path object segment.name).result = .ok (index, member) :=
    memberAt_eq_ok_iff.mpr ⟨looked, there⟩
  have nested : nested path segment member.value = .ok inner := (nested_eq_ok_iff there).mpr found
  simp only [writeSegments, Traced.result_bind, step, Except.bind, Traced.result_ofExcept, nested]
  exact failureOf?_map _ _

/-- A write comes to the same after a change that its path leads apart from. -/
theorem writeSegments_failure_put {segments : List Segment} {written : Location} {new : Value}
    (located : access.locateSegments last object segments = some location)
    (apart : written.Apart location)
    (put : (Value.object object).put written new = .object changed) :
    failureOf? (access.writeSegments path token last changed segments).result =
      failureOf? (access.writeSegments path token last object segments).result := by
  induction segments generalizing object changed written location with
  | nil =>
      obtain ⟨_, made, same⟩ := Value.put_object object apart.ne_nil new
      cases put.symm.trans made
      refine writeSlot_failure_congr same located ?_
      rw [← put]
      exact Value.at?_put_of_apart apart _ new
  | cons segment rest ih =>
      obtain ⟨_, made, same⟩ := Value.put_object object apart.ne_nil new
      cases put.symm.trans made
      obtain ⟨first, inner, further, placed, found, more, rfl⟩ :=
        locateSegments_cons_eq_some_iff.mp located
      have placed' := (locateMember_congr same).trans placed
      have around : written <+: first → written = first := fun through =>
        absurd (through.trans (List.prefix_append first further)) apart.1
      rcases at?_put_or new found around with ⟨deeper, rfl, now⟩ | ⟨-, now⟩
      · -- The change is inside the object that the segment leads to.
        have apart' : Location.Apart deeper further :=
          ⟨fun through => apart.1 ((List.prefix_append_right_inj first).mpr through),
            fun through => apart.2 ((List.prefix_append_right_inj first).mpr through)⟩
        obtain ⟨inner', made', -⟩ := Value.put_object inner apart'.ne_nil new
        rw [put, made'] at now
        rw [writeSegments_cons_failure placed' now, writeSegments_cons_failure placed found]
        exact ih more apart' made'
      · rw [put] at now
        rw [writeSegments_cons_failure placed' now, writeSegments_cons_failure placed found]

theorem write_failure_put {written : Location} {new : Value}
    (located : access.locate object path = some location) (apart : written.Apart location)
    (put : (Value.object object).put written new = .object changed) :
    failureOf? (access.write changed path token).result =
      failureOf? (access.write object path token).result := by
  obtain ⟨parsed, given, walked⟩ := locate_eq_some_iff.mp located
  simp only [write, Traced.result_bind, Traced.result_ofExcept, given, Except.bind]
  exact writeSegments_failure_put walked apart put

/-- A write that succeeds does the same after a change that its path leads apart from. -/
theorem write_put {written : Location} {new : Value} {after : Object}
    (located : access.locate object path = some location) (apart : written.Apart location)
    (put : (Value.object object).put written new = .object changed)
    (done : (access.write object path token).result = .ok after) :
    ∃ value both, (Value.object object).put location value = .object after ∧
      (Value.object changed).put location value = .object both ∧
      (access.write changed path token).result = .ok both := by
  obtain ⟨location', declared, old, value, located', slot, placed⟩ := write_eq_ok_iff.mp done
  cases located.symm.trans located'
  obtain ⟨both, made, -⟩ := Value.put_object changed (locate_ne_nil located) value
  refine ⟨value, both, placed, made, write_eq_ok_iff.mpr
    ⟨location, declared, old, value, ?_, ⟨?_, ?_, slot.converted, slot.accepted⟩, made⟩⟩
  · exact locate_put located apart.ne_nil (fun through => absurd through apart.1) put
  · rw [← put]
    exact (Value.at?_put_of_apart apart _ new).trans slot.found
  · rw [← put]
    exact (Value.declarationAt?_put_of_apart apart none _ new).trans slot.declaration

/-! ### One write after the other -/

/-- The object after a write; a write that fails leaves it as it was. -/
def attempted (access : Access) (object : Object) (path : String) (token : Token) : Object :=
  match (access.write object path token).result with
  | .ok changed => changed
  | .error _ => object

theorem attempted_of_ok (done : (access.write object path token).result = .ok changed) :
    access.attempted object path token = changed := by
  rw [attempted, done]

theorem attempted_of_failure {report : Report}
    (failed : failureOf? (access.write object path token).result = some report) :
    access.attempted object path token = object := by
  rw [attempted, failureOf?_eq_some_iff.mp failed]

/-- Along a path that leads nowhere nothing is written. -/
theorem attempted_of_nowhere (nowhere : access.locate object path = none) (token : Token) :
    access.attempted object path token = object := by
  cases ended : (access.write object path token).result with
  | error report => exact attempted_of_failure (failureOf?_eq_some_iff.mpr ended)
  | ok changed =>
      obtain ⟨_, _, _, _, located, -⟩ := write_eq_ok_iff.mp ended
      cases nowhere.symm.trans located

theorem writeEach_cons_object (complaint : String → Error → Event) (path : String)
    (token : Token) (rest : Entries) :
    (access.writeEach complaint object ((path, token) :: rest)).object =
      (access.writeEach complaint (access.attempted object path token) rest).object := by
  simp only [writeEach, attempted]
  cases (access.write object path token).result <;> rfl

theorem writeEach_cons_outcomes (complaint : String → Error → Event) (path : String)
    (token : Token) (rest : Entries) :
    (access.writeEach complaint object ((path, token) :: rest)).outcomes =
      (path, failureOf? (access.write object path token).result) ::
        (access.writeEach complaint (access.attempted object path token) rest).outcomes := by
  simp only [writeEach, attempted]
  cases (access.write object path token).result <;> rfl

section

variable {path' : String} {token' : Token} {location' : Location}

theorem write_attempted_failure (token token' : Token)
    (leads : access.locate object path = some location)
    (leads' : access.locate object path' = some location') (apart : location.Apart location') :
    failureOf? (access.write (access.attempted object path token) path' token').result =
      failureOf? (access.write object path' token').result := by
  rw [attempted]
  cases outcome : (access.write object path token).result with
  | error report => rfl
  | ok changed =>
      obtain ⟨_, _, _, _, located, -, put⟩ := write_eq_ok_iff.mp outcome
      cases leads.symm.trans located
      exact write_failure_put leads' apart put

theorem attempted_comm (leads : access.locate object path = some location)
    (leads' : access.locate object path' = some location') (apart : location.Apart location') :
    access.attempted (access.attempted object path token) path' token' =
      access.attempted (access.attempted object path' token') path token := by
  have alone := write_attempted_failure token token' leads leads' apart
  have alone' := write_attempted_failure token' token leads' leads apart.symm
  cases first : (access.write object path token).result with
  | error report =>
      rw [first] at alone'
      rw [attempted_of_failure alone', attempted_of_failure (failureOf?_eq_some_iff.mpr first)]
  | ok changed =>
      cases second : (access.write object path' token').result with
      | error report =>
          rw [second] at alone
          rw [attempted_of_failure alone, attempted_of_failure (failureOf?_eq_some_iff.mpr second)]
      | ok changed' =>
          obtain ⟨_, _, _, value, located, -, put⟩ := write_eq_ok_iff.mp first
          cases leads.symm.trans located
          obtain ⟨value', both, put', made, done⟩ := write_put leads' apart put second
          obtain ⟨again, both', put'', made', done'⟩ := write_put leads apart.symm put' first
          have same : Value.object both = .object both' := by
            rw [← made, ← made', ← put', ← put'', Value.put_comm apart]
          cases same
          rw [attempted_of_ok first, attempted_of_ok second, attempted_of_ok done,
            attempted_of_ok done']

end

/-- Two writes along paths that lead apart end in the same object in either order, and each of them
comes to the same in both orders as alone: success, or the same failure. -/
theorem writeEach_comm {access : Access} {object : Object} {path path' : String}
    {location location' : Location} (complaint : String → Error → Event) (token token' : Token)
    (leads : access.locate object path = some location)
    (leads' : access.locate object path' = some location') (apart : location.Apart location') :
    let forth := access.writeEach complaint object [(path, token), (path', token')]
    let back := access.writeEach complaint object [(path', token'), (path, token)]
    let alone := (path, failureOf? (access.write object path token).result)
    let alone' := (path', failureOf? (access.write object path' token').result)
    forth.object = back.object ∧ forth.outcomes = [alone, alone'] ∧
      back.outcomes = [alone', alone] := by
  have done : ∀ object : Object, access.writeEach complaint object [] = ⟨object, [], []⟩ :=
    fun _ => rfl
  simp only [writeEach_cons_object, writeEach_cons_outcomes, done,
    write_attempted_failure token token' leads leads' apart,
    write_attempted_failure token' token leads' leads apart.symm,
    attempted_comm leads leads' apart, true_and]

/-- Two items of one list, the first of which does not take its token. -/
theorem writeEach_comm_of_dimmer :
    let complaint : String → Error → Event := fun field _ => ⟨.warn, .requests, field⟩
    let first : String × Token := ("levels[0]", .str "full")
    let second : String × Token := ("levels[1]", .int 30)
    ({} : Access).locate (dimmer 20) first.1 = some [.member 1, .item 0] ∧
      ({} : Access).locate (dimmer 20) second.1 = some [.member 1, .item 1] ∧
      (({} : Access).writeEach complaint (dimmer 20) [first, second]).object =
        (({} : Access).writeEach complaint (dimmer 20) [second, first]).object := by
  have leads : ({} : Access).locate (dimmer 20) "levels[0]" = some [.member 1, .item 0] := by
    decide +kernel
  have leads' : ({} : Access).locate (dimmer 20) "levels[1]" = some [.member 1, .item 1] := by
    decide +kernel
  exact ⟨leads, leads', (writeEach_comm _ _ _ leads leads' ⟨by decide, by decide⟩).1⟩

end Access
end SceneEdit
