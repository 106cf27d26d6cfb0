import SceneEdit.Proofs.Coercion.Repetition
import SceneEdit.Proofs.Coercion.RoundTrip
import SceneEdit.Proofs.Value.Entries
import SceneEdit.Proofs.Value.Precedence

/-!
# Writing an object's own token

The token of an object names its members one after the other and gives each what it holds. Where
names differ, each entry stands for the member it was made from, even if other names match ignoring
case (`Table.find_own`). So if every member's own token is converted back to what the member holds,
writing the token changes nothing, entry by entry, up to the first member that is read-only, where
it fails (`own_token_written`).

A member's name may be given twice, and a material has an entry that is made from no member. The
token then differs from the members, and what writing it does depends on the names alone
(`own_token_not_restored`).
-/

namespace SceneEdit

theorem Suggestion.closest_nil (misspelt : String) : closest misspelt [] = [] := by
  unfold closest
  dsimp only
  split
  · rfl
  · simp [List.eraseDups_nil]

namespace Coercion

variable {env : Environment} {field : String} {target : ValueType} {object : Object}

/-- The own tokens of members of an object are written one after the other and change nothing, up
to the first member that is read-only. -/
theorem mergeEntries_own {members : List Member}
    (inside : ∀ member ∈ members, member ∈ object.members)
    (distinct : (object.members.map (·.name)).Nodup)
    (survives : ∀ member ∈ object.members,
      Settled env (member.value.toToken true) member.declared member.value) :
    (mergeEntries env field target object (Value.memberPairs true members)).result =
      match members.find? fun member => !member.writable with
      | none => .ok object
      | some member =>
        .error (fieldError field target s!"member '{member.name}' is read-only") := by
  rw [Value.memberPairs_all]
  induction members with
  | nil =>
      rw [List.map_nil, mergeEntries]
      rfl
  | cons member rest ih =>
      -- The first entry is looked up in the whole object, since what is before it is unchanged.
      obtain ⟨here, others⟩ := List.forall_mem_cons.mp inside
      obtain ⟨index, there⟩ := List.mem_iff_getElem?.mp here
      rw [List.map_cons, mergeEntries, Traced.result_bind, Traced.result_mapError,
        Table.find_own distinct there]
      simp only [Except.mapError, Except.bind, there]
      cases writable : member.writable with
      | true =>
          have kept := Traced.value?_eq_some_iff.mp
            (survives member here s!"{field}.{member.name}")
          rw [if_pos rfl, List.find?_cons_of_neg (by simp [writable]), ← ih others,
            Traced.result_bind, kept, Except.bind, Table.setMember_held there]
      | false =>
          rw [if_neg Bool.false_ne_true, List.find?_cons_of_pos (by simp [writable])]
          rfl

/-- Into an object of the type, an object token is merged, and fails as the merge does. -/
theorem result_coerce_object (env : Environment) (field : String) {token : Token}
    {entries : Entries}
    (nested : target = .struct object.typeName ∨ target = .reference object.typeName)
    (document : token.embedded = .obj entries) :
    (coerce env field token target (some (.object object))).result =
      (mergeEntries env field target object entries).result.map .object := by
  rw [coerce_eq_merge env field nested document, Traced.result_bind,
    baseObject_of_typeName env field target rfl]
  exact Traced.result_map _ _

/-- Writing the own token of an object that is no material and whose names differ changes nothing,
if what each member holds is what its own token is converted to and none is read-only. The first
member that is read-only is reported. -/
theorem own_token_written (env : Environment) (field : String) (target : ValueType)
    (object : Object)
    (nested : target = .struct object.typeName ∨ target = .reference object.typeName)
    (plain : object.shader = none) (distinct : (object.members.map (·.name)).Nodup)
    (survives : ∀ member ∈ object.members,
      Settled env (member.value.toToken true) member.declared member.value) :
    (coerce env field ((Value.object object).toToken true) target (some (.object object))).result =
      match object.members.find? fun member => !member.writable with
      | none => .ok (.object object)
      | some member =>
        .error (fieldError field target s!"member '{member.name}' is read-only") := by
  have names : (Value.memberPairs true object.members).keys = object.members.map (·.name) := by
    rw [Value.memberPairs_all, Entries.keys, List.map_map]
    rfl
  have token : (Value.object object).toToken true =
      .obj (Value.memberPairs true object.members) := by
    obtain ⟨name, members, shader⟩ := object
    cases plain
    rw [Value.toToken, Value.tableEntries, joinEntries,
      Entries.ofPairs_of_nodup (names.symm ▸ distinct)]
  rw [token, result_coerce_object env field nested rfl,
    mergeEntries_own (fun _ inside => inside) distinct survives]
  cases object.members.find? fun member => !member.writable <;> rfl

/-! ### Amplifiers, paints and dials -/

/-- The names of the two members match ignoring case, and the second one may be fixed. -/
def amplifier (free : Bool) : Object :=
  ⟨⟨"Amplifier"⟩, [⟨"gain", .property, .int, true, .int 3⟩, ⟨"Gain", .hidden, .int, free, .int 5⟩],
    none⟩

theorem coerce_number {i : Int} (low : -(twoTo 31 : Int) ≤ i) (high : i < twoTo 31)
    (field : String) (current : Option Value) :
    (coerce {} field ((Value.int i).toToken true) .int current).result = .ok (.int i) := by
  have typed : (Value.int i).Typed (fun _ => True) .int := .int low high
  exact coerce_toToken typed rfl field current

theorem amplifier_survives (free : Bool) : ∀ member ∈ (amplifier free).members,
    Settled {} (member.value.toToken true) member.declared member.value := by
  intro member inside
  obtain rfl | inside := List.mem_cons.mp inside
  · exact fun _ => Traced.value?_eq_some_iff.mpr (coerce_number (by decide) (by decide) _ _)
  · cases List.mem_singleton.mp inside
    exact fun _ => Traced.value?_eq_some_iff.mpr (coerce_number (by decide) (by decide) _ _)

/-- An amplifier is written as it is, and not at all where it is fixed. -/
theorem own_token_written_of_amplifier :
    (coerce {} "f" ((Value.object (amplifier true)).toToken true) (.struct ⟨"Amplifier"⟩)
        (some (.object (amplifier true)))).result = .ok (.object (amplifier true)) ∧
      (coerce {} "f" ((Value.object (amplifier false)).toToken true) (.reference ⟨"Amplifier"⟩)
        (some (.object (amplifier false)))).result =
          .error (fieldError "f" (.reference ⟨"Amplifier"⟩) "member 'Gain' is read-only") :=
  ⟨own_token_written {} "f" _ (amplifier true) (Or.inl rfl) rfl (by decide +kernel)
      (amplifier_survives true),
    own_token_written {} "f" _ (amplifier false) (Or.inr rfl) rfl (by decide +kernel)
      (amplifier_survives false)⟩

/-- A material without members. -/
def paint : Object := ⟨⟨"Paint"⟩, [], some ⟨"Standard", [⟨"_gloss", .int, .int 1⟩]⟩⟩

/-- Two members of one name. -/
def dial (level : Int) : Object :=
  ⟨⟨"Dial"⟩, [⟨"level", .property, .int, true, .int level⟩, ⟨"level", .hidden, .int, true, .int 2⟩],
    none⟩

/-- The own token is refused for an object with a member that is read-only and for a material, and
where two members have one name it changes the first of them to what the last one holds. -/
theorem own_token_not_restored :
    let written (object : Object) := (coerce {} "f" ((Value.object object).toToken true)
      (.struct object.typeName) (some (.object object))).result
    written (amplifier false) =
        .error (fieldError "f" (.struct ⟨"Amplifier"⟩) "member 'Gain' is read-only") ∧
      written paint =
        .error (fieldError "f" (.struct ⟨"Paint"⟩) "no member named 'shaderProperties'") ∧
      written (dial 1) = .ok (.object (dial 2)) ∧
      ¬ ∀ object : Object, (∀ member ∈ object.members,
          Settled {} (member.value.toToken true) member.declared member.value) →
        written object = .ok (.object object) := by
  intro written
  have refused : written (amplifier false) =
      .error (fieldError "f" (.struct ⟨"Amplifier"⟩) "member 'Gain' is read-only") := by
    have free : ((Value.object (amplifier false)).toToken true).embedded =
        .obj (Value.memberPairs true (amplifier false).members) := rfl
    refine (result_coerce_object {} "f" (Or.inl rfl) free).trans ?_
    rw [mergeEntries_own (fun _ inside => inside) (by decide +kernel) (amplifier_survives false)]
    rfl
  have material : ((Value.object paint).toToken true).embedded =
      .obj [("shaderProperties", .obj [("_gloss", .int 1)])] := rfl
  have collapsed : ((Value.object (dial 1)).toToken true).embedded = .obj [("level", .int 2)] := rfl
  refine ⟨refused, ?_, ?_, ?_⟩
  · refine (result_coerce_object {} "f" (Or.inl rfl) material).trans ?_
    have missing : (paint.find "shaderProperties").result = .error (.missing []) :=
      congrArg (Except.error ∘ LookupFailure.missing) (Suggestion.closest_nil "shaderProperties")
    rw [mergeEntries, Traced.result_bind, Traced.result_mapError, missing]
    rfl
  · have level : (coerce {} "f" (.int 2) .int (some (.int 1))).result = .ok (.int 2) :=
      coerce_number (by decide) (by decide) "f" _
    have step : mergeEntry {} (dial 1) ("level", .int 2) = some (dial 2) :=
      (mergeEntry_eq_some_iff "f").mpr ⟨0, _, .int 2, rfl, rfl, rfl, level, rfl⟩
    refine Traced.value?_eq_some_iff.mp
      ((coerce_object {} "f" (Or.inl rfl) collapsed rfl).trans ?_)
    rw [List.foldlM_cons, step]
    rfl
  · intro claimed
    cases refused.symm.trans (claimed _ (amplifier_survives false))

end Coercion
end SceneEdit
