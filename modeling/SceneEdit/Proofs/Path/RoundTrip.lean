import SceneEdit.Proofs.Coercion.RoundTrip
import SceneEdit.Proofs.Path.ReadWrite

/-!
# Writing back what was read

Where a path leads to a writable slot of a plain type, whose value is well typed, the token of what
is read there can be written back, and then nothing has changed: the token converts to the value
(`Coercion.coerce_toToken`), and putting a value where it already is leaves the object as it was.
-/

namespace SceneEdit.Access

/-- Writing back what was read changes nothing. -/
theorem read_then_write {access : Access} {object : Object} {path : String} {location : Location}
    {declared : ValueType} {value : Value} {permitted : ValueType → Prop}
    (located : access.locate object path = some location)
    (declaration : (Value.object object).declarationAt? none location = some ⟨declared, true⟩)
    (plain : declared.isPlain = true) (fits : value.Typed permitted declared)
    (read : (access.read object path).result = .ok value) :
    (access.write object path (value.toToken true)).result = .ok object := by
  obtain ⟨location', located', found⟩ := read_eq_ok_iff.mp read
  cases located.symm.trans located'
  have accepted : value.isNull = true → declared.acceptsAbsence = true := by
    intro null
    cases fits <;> first | rfl | cases null
  refine write_eq_ok_iff.mpr ⟨location, declared, value, value, located, ⟨found, declaration, ?_,
    fun null => Or.inl (accepted null)⟩, Value.put_eq_self found⟩
  exact Coercion.coerce_toToken fits plain path (some value)

/-! ### A mixer -/

/-- The bands of a mixer: pairs of gains, some of them absent. -/
def bands : Value := .list [.null, .list [.float (.zero _ true), .float (.ofInt _ 1)]]

/-- A mixer whose bands lie in a nested object that cannot be replaced. -/
def mixer : Object :=
  ⟨⟨"Mixer"⟩, [⟨"desk", .property, .struct ⟨"Desk"⟩, false, .object
    ⟨⟨"Desk"⟩, [⟨"bands", .field, .nullable (.list (.nullable (.array .float 2))), true,
      bands⟩], none⟩⟩], none⟩

theorem bands_typed :
    bands.Typed (fun _ => True) (.nullable (.list (.nullable (.array .float 2)))) := by
  have silent : Value.Typed (fun _ => True) (.float (.zero _ true)) .float :=
    .float (by decide +kernel) (by unfold Binary.AtMost; decide +kernel)
  have full : Value.Typed (fun _ => True) (.float (.ofInt _ 1)) .float :=
    .float (by decide +kernel) (by unfold Binary.AtMost; decide +kernel)
  refine .present (.list ?_)
  simp only [List.forall_mem_cons, List.not_mem_nil, false_implies, implies_true, and_true]
  refine ⟨.absent _, .present (.array rfl ?_)⟩
  simpa only [List.forall_mem_cons, List.not_mem_nil, false_implies, implies_true, and_true]
    using ⟨silent, full⟩

/-- Bands with an absent pair and a negative zero are written back, through the member's name in
another case. -/
theorem read_then_write_of_mixer :
    (({} : Access).read mixer "Desk.bands").result = .ok bands ∧
      (({} : Access).write mixer "Desk.bands" (bands.toToken true)).result = .ok mixer := by
  have located : ({} : Access).locate mixer "Desk.bands" = some [.member 0, .member 0] := by
    decide +kernel
  have read := read_eq_ok_iff.mpr ⟨_, located, rfl⟩
  exact ⟨read, read_then_write located rfl rfl bands_typed read⟩

end SceneEdit.Access
