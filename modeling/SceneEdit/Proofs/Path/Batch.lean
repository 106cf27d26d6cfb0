import Mathlib.Data.List.Perm.Basic
import SceneEdit.Proofs.Path.Independence

/-!
# What a batch writes

A batch tries its entries one after the other, each on the object that those before it have left,
and an entry that fails leaves the object as it is. So only the entries that are written count: in
the same order, and without the others, they lead to the same object and none of them fails
(`Access.foldlM_written`).

The report of a batch has two lists, of what was written and of what failed. Each is a part of the
fields in their order, and together they are all of them.
-/

namespace SceneEdit

namespace Access

variable (access : Access)

/-- What is left of an object when entries are tried on it in turn. -/
def tried (object : Object) (entries : Entries) : Object :=
  entries.foldl (fun object entry => access.attempted object entry.1 entry.2) object

/-- Each entry with what comes of it at its turn. -/
def turns : Object → Entries → List ((String × Token) × Except Report Object)
  | _, [] => []
  | object, entry :: rest =>
    (entry, (access.write object entry.1 entry.2).result) ::
      turns (access.attempted object entry.1 entry.2) rest

/-- The entries that are written at their turn. -/
def written (object : Object) (entries : Entries) : Entries :=
  ((access.turns object entries).filter fun turn => turn.2.isOk).map Prod.fst

/-- The fields that fail at their turn, each with its failure. -/
def failed (object : Object) (entries : Entries) : List (String × Report) :=
  (access.turns object entries).filterMap fun turn =>
    (failureOf? turn.2).map fun report => (turn.1.1, report)

theorem map_fst_turns (object : Object) (entries : Entries) :
    (access.turns object entries).map Prod.fst = entries := by
  induction entries generalizing object with
  | nil => rfl
  | cons entry rest ih => rw [turns, List.map_cons, ih]

theorem object_writeEach (complaint : String → Error → Event) (object : Object)
    (entries : Entries) :
    (access.writeEach complaint object entries).object = access.tried object entries := by
  induction entries generalizing object with
  | nil => rfl
  | cons entry rest ih => rw [writeEach_cons_object, ih, tried, tried, List.foldl_cons]

theorem outcomes_writeEach (complaint : String → Error → Event) (object : Object)
    (entries : Entries) :
    (access.writeEach complaint object entries).outcomes =
      (access.turns object entries).map fun turn => (turn.1.1, failureOf? turn.2) := by
  induction entries generalizing object with
  | nil => rfl
  | cons entry rest ih => rw [writeEach_cons_outcomes, ih, turns, List.map_cons]

section

variable {access} {object changed : Object} {entry : String × Token} {report : Report}

theorem written_cons_of_ok (done : (access.write object entry.1 entry.2).result = .ok changed)
    (rest : Entries) :
    access.written object (entry :: rest) = entry :: access.written changed rest := by
  rw [written, turns, done, attempted_of_ok done]
  rfl

theorem written_cons_of_error
    (stopped : (access.write object entry.1 entry.2).result = .error report) (rest : Entries) :
    access.written object (entry :: rest) = access.written object rest := by
  rw [written, turns, stopped, attempted_of_failure (failureOf?_eq_some_iff.mpr stopped)]
  rfl

theorem failed_cons_of_ok (done : (access.write object entry.1 entry.2).result = .ok changed)
    (rest : Entries) :
    access.failed object (entry :: rest) = access.failed changed rest := by
  rw [failed, turns, done, attempted_of_ok done]
  rfl

theorem failed_cons_of_error
    (stopped : (access.write object entry.1 entry.2).result = .error report) (rest : Entries) :
    access.failed object (entry :: rest) = (entry.1, report) :: access.failed object rest := by
  rw [failed, turns, stopped, attempted_of_failure (failureOf?_eq_some_iff.mpr stopped)]
  rfl

end

/-- Entries that fail may as well be left out. -/
theorem foldlM_written (object : Object) (entries : Entries) :
    (access.written object entries).foldlM
      (fun object entry => (access.write object entry.1 entry.2).result) object =
        .ok (access.tried object entries) := by
  induction entries generalizing object with
  | nil => rfl
  | cons entry rest ih =>
      rw [tried, List.foldl_cons]
      cases ended : (access.write object entry.1 entry.2).result with
      | error report =>
          rw [written_cons_of_error ended, attempted_of_failure (failureOf?_eq_some_iff.mpr ended)]
          exact ih object
      | ok changed =>
          rw [written_cons_of_ok ended, List.foldlM_cons, ended, attempted_of_ok ended]
          exact ih changed

/-! ### The report of a batch -/

theorem written_sublist (object : Object) (entries : Entries) :
    (access.written object entries).Sublist entries := by
  have part := (List.filter_sublist (p := fun turn => turn.2.isOk)
    (l := access.turns object entries)).map Prod.fst
  rwa [map_fst_turns] at part

theorem failed_sublist (object : Object) (entries : Entries) :
    ((access.failed object entries).map Prod.fst).Sublist entries.keys := by
  induction entries generalizing object with
  | nil => exact List.Sublist.slnil
  | cons entry rest ih =>
      cases ended : (access.write object entry.1 entry.2).result with
      | error report =>
          rw [failed_cons_of_error ended]
          exact (ih object).cons_cons entry.1
      | ok changed =>
          rw [failed_cons_of_ok ended]
          exact (ih changed).cons entry.1

/-- Every entry is written or fails. -/
theorem written_append_failed_perm (object : Object) (entries : Entries) :
    ((access.written object entries).keys ++ (access.failed object entries).map Prod.fst).Perm
      entries.keys := by
  induction entries generalizing object with
  | nil => exact .nil
  | cons entry rest ih =>
      cases ended : (access.write object entry.1 entry.2).result with
      | error report =>
          rw [written_cons_of_error ended, failed_cons_of_error ended]
          exact List.perm_middle.trans ((ih object).cons entry.1)
      | ok changed =>
          rw [written_cons_of_ok ended, failed_cons_of_ok ended]
          exact (ih changed).cons entry.1

/-- A batch reports what was written and what failed. -/
theorem ofOutcomes_writeEach (complaint : String → Error → Event) (entity : EntityId)
    (capability : TypeName) (object : Object) (entries : Entries) :
    BatchReport.ofOutcomes entity capability (access.writeEach complaint object entries).outcomes =
      ⟨(access.written object entries).map fun entry => ⟨entity, entry.1⟩,
        (access.failed object entries).map fun failure =>
          ⟨entity, failure.1, capability, failure.2.error⟩⟩ := by
  rw [outcomes_writeEach, written, failed, BatchReport.ofOutcomes, BatchReport.mk.injEq]
  simp only [List.filterMap_map, List.map_filterMap, ← List.filterMap_eq_map,
    List.filterMap_filter]
  constructor
  · refine List.filterMap_congr ?_
    rintro ⟨entry, report | changed⟩ - <;> rfl
  · refine List.filterMap_congr ?_
    rintro ⟨entry, report | changed⟩ - <;> rfl

end Access
end SceneEdit
