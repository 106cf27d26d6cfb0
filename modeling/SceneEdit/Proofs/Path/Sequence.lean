import SceneEdit.Proofs.Path.ReadWrite
import SceneEdit.Session.Write

/-!
# Entries in sequence

Outside of batches entries are written one after the other, and the first failure ends the writing.
`Access.afterAll` is the object that they lead to. What an entry has written is still there in the
end unless a later one goes to the same place, into it or around it (`Access.Lasts`).
-/

namespace SceneEdit.Access

variable {access : Access} {object final : Object} {location : Location} {path : String}

/-- The object that entries lead to if all of them can be written, else the first failure. -/
def afterAll (access : Access) (object : Object) (entries : Entries) : Except Report Object :=
  entries.foldlM (fun object entry => (access.write object entry.1 entry.2).result) object

theorem afterAll_cons_eq_ok_iff {entry : String × Token} {rest : Entries} :
    access.afterAll object (entry :: rest) = .ok final ↔ ∃ changed,
      (access.write object entry.1 entry.2).result = .ok changed ∧
      access.afterAll changed rest = .ok final := by
  rw [afterAll, List.foldlM_cons]
  exact bind_eq_ok_iff

theorem afterAll_append_eq_ok_iff {first second : Entries} :
    access.afterAll object (first ++ second) = .ok final ↔ ∃ middle,
      access.afterAll object first = .ok middle ∧ access.afterAll middle second = .ok final := by
  rw [afterAll, List.foldlM_append]
  exact bind_eq_ok_iff

theorem writeAll_cons_of_ok {changed : Object} {entry : String × Token} (rest : Entries)
    (done : (access.write object entry.1 entry.2).result = .ok changed) :
    (access.writeAll object (entry :: rest)).1 = (access.writeAll changed rest).1 ∧
      (access.writeAll object (entry :: rest)).2.result =
        (access.writeAll changed rest).2.result := by
  rw [writeAll, done]
  exact ⟨rfl, rfl⟩

/-- Entries that are all written lead to what is left in the end. -/
theorem afterAll_writeAll {entries : Entries}
    (done : (access.writeAll object entries).2.result = .ok ()) :
    access.afterAll object entries = .ok (access.writeAll object entries).1 := by
  induction entries generalizing object with
  | nil => rfl
  | cons entry rest ih =>
      cases outcome : (access.write object entry.1 entry.2).result with
      | error report =>
          rw [writeAll, outcome] at done
          cases done
      | ok changed =>
          obtain ⟨same, same'⟩ := writeAll_cons_of_ok rest outcome
          rw [same]
          exact afterAll_cons_eq_ok_iff.mpr ⟨changed, outcome, ih (same'.symm.trans done)⟩

/-- No entry leads, at its turn, to a location, into it or around it. -/
def Spares (access : Access) (location : Location) : Object → Entries → Prop
  | _, [] => True
  | object, entry :: rest => ∀ changed, (access.write object entry.1 entry.2).result = .ok changed →
      (∀ other, access.locate object entry.1 = some other → other.Apart location) ∧
      Spares access location changed rest

/-- Entries that spare the location of a path leave the path and what is there as they were. -/
theorem locate_afterAll {entries : Entries} (located : access.locate object path = some location)
    (spares : access.Spares location object entries)
    (done : access.afterAll object entries = .ok final) :
    access.locate final path = some location ∧
      (Value.object final).at? location = (Value.object object).at? location := by
  induction entries generalizing object with
  | nil =>
      cases done
      exact ⟨located, rfl⟩
  | cons entry rest ih =>
      obtain ⟨changed, written, done⟩ := afterAll_cons_eq_ok_iff.mp done
      obtain ⟨apart, spares⟩ := spares changed written
      obtain ⟨other, _, _, new, leads, -, put⟩ := write_eq_ok_iff.mp written
      have away := apart other leads
      have located' := locate_put located away.ne_nil (fun through => absurd through away.1) put
      obtain ⟨still, same⟩ := ih located' spares done
      refine ⟨still, same.trans ?_⟩
      rw [← put]
      exact Value.at?_put_of_apart away _ new

/-- An entry between others has been written at its turn, where the path led to then, and what its
token converted to is read along the path in the end, unless a later entry went there. -/
def Lasts (access : Access) (start final : Object) (before : Entries) (entry : String × Token)
    (later : Entries) : Prop :=
  ∃ middle changed location declared old new, access.afterAll start before = .ok middle ∧
    access.locate middle entry.1 = some location ∧
    (Value.object middle).declarationAt? none location = some ⟨declared, true⟩ ∧
    (Coercion.coerce access.env entry.1 entry.2 declared (some old)).result = .ok new ∧
    (access.write middle entry.1 entry.2).result = .ok changed ∧
    (access.Spares location changed later → (access.read final entry.1).result = .ok new)

theorem lasts_of_afterAll {start : Object} {before later : Entries} {entry : String × Token}
    (done : access.afterAll start (before ++ entry :: later) = .ok final) :
    access.Lasts start final before entry later := by
  obtain ⟨middle, first, done⟩ := afterAll_append_eq_ok_iff.mp done
  obtain ⟨changed, written, done⟩ := afterAll_cons_eq_ok_iff.mp done
  obtain ⟨location, declared, old, new, located, slot, put⟩ := write_eq_ok_iff.mp written
  have located' := locate_put located (locate_ne_nil located) (fun _ => rfl) put
  refine ⟨middle, changed, location, declared, old, new, first, located, slot.declaration,
    slot.converted, written, fun spares => ?_⟩
  obtain ⟨still, same⟩ := locate_afterAll located' spares done
  refine read_eq_ok_iff.mpr ⟨location, still, same.trans ?_⟩
  rw [← put]
  exact Value.at?_put_self slot.found new

end SceneEdit.Access
