import SceneEdit.Proofs.Coercion.Merge
import SceneEdit.Proofs.Path.Grammar
import SceneEdit.Proofs.Path.ReadWrite

/-!
# Object tokens along a path

Where a path leads to an object of the declared type, writing an object token there comes to the
same as writing its entries one after the other, each along the path with its key at the end.

Both writers are compared with the object itself. Writing one entry along the longer path puts there
what one step of the merge makes of the object (`write_within_eq_ok_iff`), and writing the token
puts there what all its steps make of it (`write_entries_eq_ok_iff`). What a step needs of the path
stays true after it (`LeadsToObject.put`), since the object keeps its outline and nothing around it
changes, so the two folds go in step.
-/

namespace SceneEdit

namespace Path

/-- A name that is a path by itself. -/
def Bare (key : String) : Prop := parse key = .ok ⟨[], ⟨key, []⟩⟩

instance (key : String) : Decidable (Bare key) := inferInstanceAs (Decidable (_ = _))

/-- The path of a member of what a path leads to. -/
def within (path key : String) : String := Text.trim path ++ "." ++ key

theorem intercalate_concat {parts : List (List Char)} (given : parts ≠ [])
    (between last : List Char) :
    between.intercalate (parts ++ [last]) = between.intercalate parts ++ between ++ last := by
  induction parts with
  | nil => exact absurd rfl given
  | cons part rest ih =>
      cases rest with
      | nil => simp
      | cons next more =>
          rw [List.cons_append, List.intercalate_cons_of_ne_nil (by simp), ih (by simp),
            List.intercalate_cons_cons]
          simp only [List.append_assoc]

/-- The spelling of a name that is a path by itself. -/
theorem Bare.exists_spelling {key : String} (bare : Bare key) :
    ∃ spelling : SegmentSpelling, spelling.chars = key.toList ∧ spelling.segment = ⟨key, []⟩ := by
  obtain ⟨spelling, -, same⟩ := parse_eq_ok_iff.mp bare
  have last : spelling.last.segment = ⟨key, []⟩ := congrArg Path.last same
  have name : String.ofList spelling.last.name = key := congrArg Segment.name last
  have runs : spelling.last.runs = [] := List.map_eq_nil_iff.mp (congrArg Segment.indices last)
  refine ⟨spelling.last, ?_, last⟩
  rw [SegmentSpelling.chars, runs, ← name]
  simp

theorem parse_within {text key : String} {path : Path} (read : parse text = .ok path)
    (bare : Bare key) : parse (within text key) = .ok ⟨path.segments, ⟨key, []⟩⟩ := by
  obtain ⟨spelling, written, rfl⟩ := parse_eq_ok_iff.mp read
  obtain ⟨last, written', same⟩ := bare.exists_spelling
  have chars : (Spelling.mk spelling.segments last).chars = (within text key).toList := by
    rw [Spelling.chars, Spelling.segments, List.map_append, List.map_singleton,
      intercalate_concat (by simp [Spelling.segments]), ← Spelling.chars, written, written']
    simp [within, Text.trim]
  refine parse_eq_ok_iff.mpr ⟨⟨spelling.segments, last⟩, ?_, ?_⟩
  · rw [← chars, Spelling.trimmed_chars]
  · rw [Spelling.path, spelling.segments_path, same]

end Path

namespace Access

variable {access : Access} {root table : Object} {path key : String} {location : Location}

/-! ### One step further -/

theorem locateSegments_concat {object inner : Object} {segments : List Segment}
    {last next : Segment} (located : access.locateSegments last object segments = some location)
    (direct : ∀ index, location.getLast? ≠ some (.channel index))
    (held : (Value.object object).at? location = some (.object inner)) :
    access.locateSegments next object (segments ++ [last]) =
      (access.locateSlot inner next).map (location ++ ·) := by
  induction segments generalizing object location with
  | nil =>
      cases routed : access.isChannel object last with
      | true =>
          obtain ⟨index, -, rfl, -⟩ := (locateSlot_of_channel routed).mp located
          exact absurd rfl (direct index)
      | false =>
          obtain ⟨placed, -⟩ := (locateSlot_of_member routed).mp located
          simp [locateSegments, placed, held, Value.object?]
  | cons segment rest ih =>
      obtain ⟨first, middle, further, placed, found, more, rfl⟩ :=
        locateSegments_cons_eq_some_iff.mp located
      have direct' : ∀ index, further.getLast? ≠ some (.channel index) := by
        intro index last
        refine direct index ?_
        rw [List.getLast?_append, last]
        rfl
      rw [Value.at?_append, found, Option.bind_some] at held
      simp [locateSegments, placed, found, Value.object?, ih more direct' held,
        Function.comp_def]

/-- A path leads to an object that is in a member or in an item, not in a shader channel. -/
structure LeadsToObject (access : Access) (root : Object) (path : String) (location : Location)
    (table : Object) : Prop where
  located : access.locate root path = some location
  direct : ∀ index, location.getLast? ≠ some (.channel index)
  held : (Value.object root).at? location = some (.object table)

/-- After a change of the object, the path leads to what it was changed to. -/
theorem LeadsToObject.put {changed merged : Object}
    (leads : LeadsToObject access root path location table)
    (put : (Value.object root).put location (.object merged) = .object changed) :
    LeadsToObject access changed path location merged where
  located := locate_put leads.located (locate_ne_nil leads.located) (fun _ => rfl) put
  direct := leads.direct
  held := by
    rw [← put]
    exact Value.at?_put_self leads.held _

theorem LeadsToObject.locate_within (leads : LeadsToObject access root path location table)
    (bare : Path.Bare key) :
    access.locate root (Path.within path key) =
      (access.locateSlot table ⟨key, []⟩).map (location ++ ·) := by
  obtain ⟨parsed, read, walked⟩ := locate_eq_some_iff.mp leads.located
  rw [locate, Path.parse_within read bare]
  exact locateSegments_concat walked leads.direct leads.held

/-! ### Both writers -/

/-- Writing an entry along the longer path puts there what the entry makes of the object. -/
theorem write_within_eq_ok_iff {token : Token} {changed : Object}
    (leads : LeadsToObject access root path location table) (bare : Path.Bare key)
    (direct : access.isChannel table ⟨key, []⟩ = false) :
    (access.write root (Path.within path key) token).result = .ok changed ↔
      ∃ merged, Coercion.mergeEntry access.env table (key, token) = some merged ∧
        (Value.object root).put location (.object merged) = .object changed := by
  have placed : ∀ {index member new}, table.members[index]? = some member →
      (Value.object root).put (location ++ [.member index]) new =
        (Value.object root).put location (.object (table.setMember index new)) := by
    intro index member new there
    rw [Value.put_append leads.held]
    exact congrArg _ (put_member there [] new)
  rw [write_eq_ok_iff, leads.locate_within bare]
  simp only [Option.map_eq_some_iff, locateSlot_of_member direct, locateMember_eq_some_iff,
    Coercion.mergeEntry_eq_some_iff (Path.within path key), List.map_nil]
  constructor
  · rintro ⟨_, declared, old, new, ⟨_, ⟨⟨index, looked, rfl⟩, -⟩, rfl⟩, written, put⟩
    have inside := (written_append leads.held (List.cons_ne_nil _ _)).mp written
    obtain ⟨member, there, held⟩ := at?_member_eq_some_iff.mp inside.found
    have declaration := inside.declaration
    rw [declarationAt?_member there] at declaration
    obtain ⟨rfl, writable⟩ := Declaration.mk.inj (Option.some.inj declaration)
    cases held
    exact ⟨_, ⟨index, member, new, looked, there, writable, inside.converted, rfl⟩,
      (placed there).symm.trans put⟩
  · rintro ⟨_, ⟨index, member, new, looked, there, writable, converted, rfl⟩, put⟩
    have found := (at?_member there []).trans (show _ = some member.value from rfl)
    refine ⟨_, member.declared, member.value, new, ⟨_, ⟨⟨index, looked, rfl⟩, ?_⟩, rfl⟩,
      (written_append leads.held (List.cons_ne_nil _ _)).mpr ⟨found, ?_, converted, ?_⟩,
      (placed there).trans put⟩
    · rw [found]
      rfl
    · rw [declarationAt?_member there, writable]
      rfl
    · exact fun null => Or.inl (Coercion.acceptsAbsence_of_coerce converted null)

section

variable {declared : ValueType} {entries : Entries} {changed : Object}

/-- Writing an object token puts there what its entries make of the object. -/
theorem write_entries_eq_ok_iff (leads : LeadsToObject access root path location table)
    (declaration : (Value.object root).declarationAt? none location = some ⟨declared, true⟩)
    (nested : declared = .struct table.typeName ∨ declared = .reference table.typeName) :
    (access.write root path (.obj entries)).result = .ok changed ↔
      ∃ merged, entries.foldlM (Coercion.mergeEntry access.env) table = some merged ∧
        (Value.object root).put location (.object merged) = .object changed := by
  have converts : ∀ new,
      (Coercion.coerce access.env path (.obj entries) declared (some (.object table))).result =
        .ok new ↔ ∃ merged, entries.foldlM (Coercion.mergeEntry access.env) table = some merged ∧
          .object merged = new := by
    intro new
    rw [← Traced.value?_eq_some_iff, Coercion.coerce_object access.env path nested rfl rfl,
      Option.map_eq_some_iff]
  rw [write_eq_ok_iff]
  constructor
  · rintro ⟨location', declared', old, new, located, written, put⟩
    cases leads.located.symm.trans located
    cases leads.held.symm.trans written.found
    cases declaration.symm.trans written.declaration
    obtain ⟨merged, folded, rfl⟩ := (converts new).mp written.converted
    exact ⟨merged, folded, put⟩
  · rintro ⟨merged, folded, put⟩
    exact ⟨location, declared, _, _, leads.located,
      ⟨leads.held, declaration, (converts _).mpr ⟨merged, folded, rfl⟩, fun null => by cases null⟩,
      put⟩

/-- Writing entries along the longer paths, one after the other, puts there what they make of the
object. -/
theorem foldlM_write_eq_some_iff (leads : LeadsToObject access root path location table)
    (keys : ∀ entry ∈ entries, Path.Bare entry.1 ∧
      access.isChannel table ⟨entry.1, []⟩ = false) :
    entries.foldlM (fun object entry =>
        (access.write object (Path.within path entry.1) entry.2).value?) root = some changed ↔
      ∃ merged, entries.foldlM (Coercion.mergeEntry access.env) table = some merged ∧
        (Value.object root).put location (.object merged) = .object changed := by
  induction entries generalizing root table with
  | nil =>
      have same := Value.put_eq_self leads.held
      simp [same]
  | cons entry rest ih =>
      obtain ⟨⟨bare, direct⟩, others⟩ := List.forall_mem_cons.mp keys
      -- After the first entry the path leads to what the entry has made of the object.
      have after : ∀ {step next}, Coercion.mergeEntry access.env table entry = some step →
          (Value.object root).put location (.object step) = .object next →
          (rest.foldlM (fun object entry =>
              (access.write object (Path.within path entry.1) entry.2).value?) next =
            some changed ↔
          ∃ merged, rest.foldlM (Coercion.mergeEntry access.env) step = some merged ∧
            (Value.object root).put location (.object merged) = .object changed) := by
        intro step next first put
        have same := Coercion.outline_mergeEntry first
        have keys' : ∀ entry ∈ rest, Path.Bare entry.1 ∧
            access.isChannel step ⟨entry.1, []⟩ = false := fun entry inside =>
          ⟨(others entry inside).1, (isChannel_congr same).trans (others entry inside).2⟩
        have later := ih (leads.put put) keys'
        simpa only [← put, Value.put_put] using later
      simp only [List.foldlM_cons, Option.bind_eq_bind, Option.bind_eq_some_iff,
        Traced.value?_eq_some_iff, write_within_eq_ok_iff leads bare direct]
      constructor
      · rintro ⟨next, ⟨step, first, put⟩, more⟩
        obtain ⟨merged, folded, put'⟩ := (after first put).mp more
        exact ⟨merged, ⟨step, first, folded⟩, put'⟩
      · rintro ⟨merged, ⟨step, first, folded⟩, put'⟩
        obtain ⟨next, put, -⟩ := Value.put_object root (locate_ne_nil leads.located) (.object step)
        exact ⟨next, ⟨step, first, put⟩, (after first put).mpr ⟨merged, folded, put'⟩⟩

end

/-- Writing an object token where a path leads to an object of the declared type, in a member that
can be written and not in a shader channel, succeeds exactly if its entries can be written one after
the other, each along the path with its key at the end, and both ways end in the same object. What
lies apart from the object is kept, and so is everything inside it that the token spares, at every
depth. -/
theorem write_object_entrywise {declared : ValueType} {entries : Entries}
    (leads : LeadsToObject access root path location table)
    (declaration : (Value.object root).declarationAt? none location = some ⟨declared, true⟩)
    (nested : declared = .struct table.typeName ∨ declared = .reference table.typeName)
    (keys : ∀ entry ∈ entries, Path.Bare entry.1 ∧
      access.isChannel table ⟨entry.1, []⟩ = false) :
    (access.write root path (.obj entries)).value? =
      entries.foldlM (fun object entry =>
        (access.write object (Path.within path entry.1) entry.2).value?) root ∧
    ∀ changed, (access.write root path (.obj entries)).result = .ok changed →
      (∀ other, location.Apart other →
        (Value.object changed).at? other = (Value.object root).at? other) ∧
      ∀ inside kept, (Value.object table).at? inside = some kept →
        Coercion.Spares declared (.obj entries) (.object table) inside →
        (Value.object changed).at? (location ++ inside) = some kept := by
  refine ⟨Option.ext fun changed => ?_, fun changed done => ?_⟩
  · rw [Traced.value?_eq_some_iff, write_entries_eq_ok_iff leads declaration nested,
      foldlM_write_eq_some_iff leads keys]
  · obtain ⟨merged, folded, put⟩ := (write_entries_eq_ok_iff leads declaration nested).mp done
    refine ⟨fun other apart => ?_, fun inside kept found spares => ?_⟩
    · rw [← put]
      exact Value.at?_put_of_apart apart _ _
    · have document : (Token.obj entries).embedded = .obj entries := rfl
      have converted := Coercion.coerce_object access.env path nested document rfl
      rw [folded] at converted
      have same := Coercion.coerce_keptAt spares path (.object table) (.refl found)
        (.object merged) (Traced.value?_eq_some_iff.mp converted)
      rw [← put, Value.at?_append, Value.at?_put_self leads.held]
      exact same.at?_eq.trans found

/-! ### A lamp on a motor -/

/-- A motor with a limit to its speed. -/
def motor (speed : Int) : Object :=
  ⟨⟨"Motor"⟩, [⟨"speed", .property, .int, true, .int speed⟩,
    ⟨"limit", .property, .int, true, .int 9⟩], none⟩

/-- A lamp on a motor, with two members whose names differ in case only. -/
def spotlight (level speed : Int) : Object :=
  ⟨⟨"Spotlight"⟩, [⟨"Level", .hidden, .int, true, .int 1⟩,
    ⟨"level", .property, .int, true, .int level⟩,
    ⟨"motor", .field, .struct ⟨"Motor"⟩, true, .object (motor speed)⟩], none⟩

/-- A rig with two places for lamps, of which the first is empty. -/
def rig (level speed : Int) : Object :=
  ⟨⟨"Rig"⟩, [⟨"lamps", .property, .list (.reference ⟨"Spotlight"⟩), true,
    .list [.null, .object (spotlight level speed)]⟩], none⟩

/-- Entries for a lamp, one of them with an object token for its motor. -/
def adjustment : Entries := [("level", .int 5), ("Motor", .obj [("speed", .int 7)])]

theorem foldlM_adjustment :
    adjustment.foldlM (Coercion.mergeEntry {}) (spotlight 2 3) = some (spotlight 5 7) := by
  have level : Coercion.mergeEntry {} (spotlight 2 3) ("level", .int 5) =
      some (spotlight 5 3) := by
    refine (Coercion.mergeEntry_eq_some_iff "").mpr ⟨1, _, .int 5, rfl, rfl, rfl, ?_, rfl⟩
    rw [Coercion.coerce]
    rfl
  have speed : Coercion.mergeEntry {} (motor 3) ("speed", .int 7) = some (motor 7) := by
    refine (Coercion.mergeEntry_eq_some_iff "").mpr ⟨0, _, .int 7, rfl, rfl, rfl, ?_, rfl⟩
    rw [Coercion.coerce]
    rfl
  have turned : Coercion.mergeEntry {} (spotlight 5 3) ("Motor", .obj [("speed", .int 7)]) =
      some (spotlight 5 7) := by
    refine (Coercion.mergeEntry_eq_some_iff "").mpr
      ⟨2, _, .object (motor 7), rfl, rfl, rfl, Traced.value?_eq_some_iff.mp ?_, rfl⟩
    have document : (Token.obj [("speed", .int 7)]).embedded = .obj [("speed", .int 7)] := rfl
    have type : (motor 3).typeName = ⟨"Motor"⟩ := rfl
    refine (Coercion.coerce_object {} "" (Or.inl rfl) document type).trans ?_
    rw [List.foldlM_cons, speed]
    rfl
  rw [adjustment, List.foldlM_cons, level]
  exact congrArg (Option.bind · _) turned

/-- Neither entry names the limit of the motor. -/
theorem spares_limit :
    Coercion.Spares (.reference ⟨"Spotlight"⟩) (.obj adjustment) (.object (spotlight 2 3))
      [.member 2, .member 1] := by
  refine .object (Or.inr rfl) rfl rfl ?_
  rintro key token index member inside looked there ⟨⟩
  obtain level | inside := List.mem_cons.mp inside
  · cases level
    cases looked
  · cases List.mem_singleton.mp inside
    cases there
    refine .object (Or.inl rfl) rfl rfl ?_
    rintro key token index member inside looked - ⟨⟩
    cases List.mem_singleton.mp inside
    cases looked

/-- A lamp in a list is written by one of two names that differ in case, and by a name in another
case through its motor, whose limit is kept. -/
theorem write_object_entrywise_of_spotlight :
    (({} : Access).write (rig 2 3) "lamps[1]" (.obj adjustment)).result = .ok (rig 5 7) ∧
      adjustment.foldlM (fun object entry =>
        (({} : Access).write object (Path.within "lamps[1]" entry.1) entry.2).value?) (rig 2 3) =
          some (rig 5 7) ∧
      (Value.object (rig 5 7)).at? [.member 0, .item 1, .member 2, .member 1] =
        some (.int 9) := by
  have leads : LeadsToObject {} (rig 2 3) "lamps[1]" [.member 0, .item 1] (spotlight 2 3) :=
    ⟨by decide +kernel, by simp, rfl⟩
  have declaration : (Value.object (rig 2 3)).declarationAt? none [.member 0, .item 1] =
      some ⟨.reference ⟨"Spotlight"⟩, true⟩ := rfl
  have keys : ∀ entry ∈ adjustment, Path.Bare entry.1 ∧
      ({} : Access).isChannel (spotlight 2 3) ⟨entry.1, []⟩ = false := by decide +kernel
  have done : (({} : Access).write (rig 2 3) "lamps[1]" (.obj adjustment)).result =
      .ok (rig 5 7) :=
    (write_entries_eq_ok_iff leads declaration (Or.inr rfl)).mpr ⟨_, foldlM_adjustment, rfl⟩
  obtain ⟨same, frame⟩ := write_object_entrywise leads declaration (Or.inr rfl) keys
  refine ⟨done, ?_, (frame _ done).2 [.member 2, .member 1] (.int 9) rfl spares_limit⟩
  rw [← same]
  exact Traced.value?_eq_some_iff.mpr done

end Access
end SceneEdit
