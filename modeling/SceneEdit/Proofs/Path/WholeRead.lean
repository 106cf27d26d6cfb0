import SceneEdit.Proofs.Path.ObjectToken
import SceneEdit.Proofs.Value.Entries
import SceneEdit.Proofs.Value.Precedence

/-!
# Whole reads and reads of one member

What an object holds under a name can be read in two ways: along the name as a path, and as the
entry of the name in the token of the whole object. Other names that match ignoring case play no
part in either. But of several members of the name, the path leads to the first in the order of
visibility (`Table.Leads`), while the entry is made from the last one in the table that is shown
(`Table.Closes`). So the two readings agree, whatever the object holds, if and only if one member is
both (`readings_agree_iff`).
-/

namespace SceneEdit

namespace Table

variable {ν : Type} {table : Table ν} {name : String} {index : Nat} {member : Slot ν}
variable {hidden : Bool}

/-- The member of a name that is the last in the table to be shown. -/
structure Closes (table : Table ν) (hidden : Bool) (name : String) (index : Nat)
    (member : Slot ν) : Prop where
  there : table.members[index]? = some member
  named : member.name = name
  shown : member.Shown hidden
  last : ∀ place other, table.members[place]? = some other → other.name = name →
    other.Shown hidden → place ≤ index

end Table

section

variable {object changed : Object} {name : String} {index : Nat} {member : Member} {hidden : Bool}

/-- Which member of a name is shown last does not depend on what is held. -/
theorem Table.Closes.of_outline (closes : object.Closes hidden name index member)
    (same : changed.outline = object.outline) :
    ∃ value, changed.Closes hidden name index { member with value } := by
  obtain ⟨value, there⟩ := member_of_outline same closes.there
  refine ⟨value, there, closes.named, closes.shown, fun place other held named shown => ?_⟩
  obtain ⟨old, held'⟩ := member_of_outline same.symm held
  exact closes.last place { other with value := old } held' named shown

theorem Table.plain_of_outline (same : changed.outline = object.outline)
    (plain : object.shader = none) : changed.shader = none := by
  have shaders := congrArg Table.shader same
  simpa [outline, plain] using shaders

/-! ### The entry of a name -/

/-- The entry of a name is made from the last member of the name that is shown. -/
theorem Value.get?_tableEntries_eq_some_iff (plain : object.shader = none) {token : Token} :
    (tableEntries hidden object).get? name = some token ↔ ∃ last latest,
      object.Closes hidden name last latest ∧ token = latest.value.toToken hidden := by
  rw [tableEntries_of_plain plain, Entries.get?_ofPairs, memberPairs_eq, ← List.map_reverse,
    ← List.filter_reverse, List.find?_map, List.find?_filter, Option.map_map,
    Option.map_eq_some_iff]
  simp only [find?_reverse_eq_some_iff, Function.comp_apply, decide_eq_true_eq, beq_iff_eq]
  constructor
  · rintro ⟨latest, ⟨last, there, ⟨shown, named⟩, final⟩, rfl⟩
    exact ⟨last, latest, ⟨there, named, shown, fun place other held named shown =>
      final place other held ⟨shown, named⟩⟩, rfl⟩
  · rintro ⟨last, latest, closes, rfl⟩
    exact ⟨latest, ⟨last, closes.there, ⟨closes.shown, closes.named⟩,
      fun place other held both => closes.last place other held both.2 both.1⟩, rfl⟩

end

namespace Access

variable {access : Access} {object : Object} {name : String}

/-- A name that is a path by itself leads to the member it stands for. -/
theorem result_read_of_find (plain : object.shader = none) (bare : Path.Bare name) {index : Nat}
    {member : Member} (looked : (object.find name).result = .ok index)
    (there : object.members[index]? = some member) :
    (access.read object name).result = .ok member.value := by
  have found : (Value.object object).at? [.member index] = some member.value :=
    at?_member there []
  have direct : access.isChannel object ⟨name, []⟩ = false := by
    simp [isChannel, Table.isMaterial, plain]
  refine read_eq_ok_iff.mpr ⟨_, locate_eq_some_iff.mpr ⟨_, bare, ?_⟩, found⟩
  refine (locateSlot_of_member direct).mpr ⟨?_, by rw [found]; rfl⟩
  exact locateMember_eq_some_iff.mpr ⟨index, looked, rfl⟩

/-- What is read at a name is what the token of the whole object shows under it. -/
def ReadingsAgree (access : Access) (hidden : Bool) (object : Object) (name : String) : Prop :=
  ∃ value, (access.read object name).result = .ok value ∧
    (Value.tableEntries hidden object).get? name = some (value.toToken hidden)

/-- A member that leads is read, and a member that closes is shown, so the readings agree if and
only if they hold values of one token. -/
theorem readingsAgree_iff_of_leads {hidden : Bool} {first last : Nat} {leader latest : Member}
    (plain : object.shader = none) (bare : Path.Bare name)
    (leads : object.Leads name first leader) (closes : object.Closes hidden name last latest) :
    access.ReadingsAgree hidden object name ↔
      leader.value.toToken hidden = latest.value.toToken hidden := by
  obtain ⟨first', leader', leads', looked⟩ := Table.exists_leads leads.there leads.named
  cases leads.index_eq leads'
  have read : (access.read object name).result = .ok leader.value :=
    result_read_of_find plain bare looked leads.there
  have shown : (Value.tableEntries hidden object).get? name =
      some (latest.value.toToken hidden) :=
    (Value.get?_tableEntries_eq_some_iff plain).mpr ⟨last, latest, closes, rfl⟩
  rw [ReadingsAgree, read, shown]
  constructor
  · rintro ⟨value, same, agree⟩
    cases same
    exact (Option.some.inj agree).symm
  · exact fun same => ⟨_, rfl, congrArg some same.symm⟩

/-- Where the whole object, which is no material, shows a name that is a path by itself, the name
can be read as a path. Of the members of the name, the path reads the one that comes first by
visibility and place, while the whole object shows the last one. The two readings agree whatever
the members hold if and only if these are one member. -/
theorem readings_agree_iff (access : Access) (object : Object) (plain : object.shader = none)
    (hidden : Bool) {name : String} {token : Token} (bare : Path.Bare name)
    (shown : (Value.tableEntries hidden object).get? name = some token) :
    ∃ first leader last latest, object.Leads name first leader ∧
      object.Closes hidden name last latest ∧
      (access.read object name).result = .ok leader.value ∧
      token = latest.value.toToken hidden ∧
      ((∀ changed : Object, changed.outline = object.outline →
        access.ReadingsAgree hidden changed name) ↔ first = last) := by
  obtain ⟨last, latest, closes, rfl⟩ := (Value.get?_tableEntries_eq_some_iff plain).mp shown
  obtain ⟨first, leader, leads, looked⟩ := Table.exists_leads closes.there closes.named
  refine ⟨first, leader, last, latest, leads, closes,
    result_read_of_find plain bare looked leads.there, rfl, fun always => ?_, ?_⟩
  · -- If the members are two, let them hold different values.
    by_contra apart
    let changed := (object.setMember first (.bool true)).setMember last (.bool false)
    have same : changed.outline = object.outline := by
      rw [Table.outline_setMember, Table.outline_setMember]
    obtain ⟨value, leads'⟩ := leads.of_outline same
    obtain ⟨value', closes'⟩ := closes.of_outline same
    have agree := (readingsAgree_iff_of_leads (Table.plain_of_outline same plain) bare leads'
      closes').mp (always changed same)
    have yes : changed.members[first]? = some { leader with value := .bool true } := by
      rw [Table.getElem?_setMember_of_ne (Ne.symm apart)]
      exact Table.getElem?_setMember_self leads.there _
    have held : (object.setMember first (.bool true)).members[last]? = some latest :=
      (Table.getElem?_setMember_of_ne apart object _).trans closes.there
    have no : changed.members[last]? = some { latest with value := .bool false } :=
      Table.getElem?_setMember_self held _
    cases leads'.there.symm.trans yes
    cases closes'.there.symm.trans no
    cases agree
  · rintro rfl changed same
    cases leads.there.symm.trans closes.there
    obtain ⟨value, leads'⟩ := leads.of_outline same
    obtain ⟨value', closes'⟩ := closes.of_outline same
    refine (readingsAgree_iff_of_leads (Table.plain_of_outline same plain) bare leads'
      closes').mpr ?_
    cases leads'.there.symm.trans closes'.there
    rfl

/-! ### A gauge -/

/-- Three members of names that match ignoring case, two of them of one name. -/
def gauge : Object :=
  ⟨⟨"Gauge"⟩, [⟨"level", .property, .int, true, .int 1⟩, ⟨"Level", .field, .int, true, .int 5⟩,
    ⟨"level", .hidden, .int, true, .int 2⟩], none⟩

/-- Without its hidden members a gauge shows what is read from it, whatever it holds; with them it
does not. -/
theorem readings_agree_iff_of_gauge :
    (∀ changed : Object, changed.outline = gauge.outline →
      ({} : Access).ReadingsAgree false changed "level") ∧
    ¬ ∀ changed : Object, changed.outline = gauge.outline →
      ({} : Access).ReadingsAgree true changed "level" := by
  have bare : Path.Bare "level" := by decide +kernel
  constructor
  · have shown : (Value.tableEntries false gauge).get? "level" = some (.int 1) := rfl
    obtain ⟨first, leader, last, latest, leads, closes, -, -, always⟩ :=
      readings_agree_iff {} gauge rfl false bare shown
    refine always.mpr ?_
    have front : first = 0 := by
      obtain lower | ⟨-, le⟩ := leads.first 0 _ rfl rfl
      · cases lower
      · exact Nat.le_zero.mp le
    rw [front]
    match last, closes with
    | 0, _ => rfl
    | 1, closes => cases closes.there; exact absurd closes.named (by decide)
    | 2, closes => cases closes.there; exact absurd closes.shown (by decide)
    | _ + 3, closes => cases closes.there
  · have shown : (Value.tableEntries true gauge).get? "level" = some (.int 2) := rfl
    obtain ⟨first, leader, last, latest, leads, closes, -, -, always⟩ :=
      readings_agree_iff {} gauge rfl true bare shown
    intro agree
    have same := always.mp agree
    have back : 2 ≤ last := closes.last 2 _ rfl rfl (Or.inl rfl)
    obtain lower | ⟨-, le⟩ := leads.first 0 _ rfl rfl
    · cases lower
    · omega

/-- A gauge with its hidden members shows another level than the one that is read. -/
theorem readings_do_not_agree :
    (({} : Access).read gauge "level").result = .ok (.int 1) ∧
      (Value.tableEntries true gauge).get? "level" = some (.int 2) ∧
      ¬ ∀ (object : Object) (hidden : Bool) (name : String) (token : Token),
        object.shader = none → Path.Bare name →
        (Value.tableEntries hidden object).get? name = some token →
        (({} : Access).read object name).result.map (Value.toToken hidden) = .ok token := by
  have bare : Path.Bare "level" := by decide +kernel
  have read : (({} : Access).read gauge "level").result = .ok (.int 1) :=
    result_read_of_find rfl bare (by decide +kernel : (gauge.find "level").result = .ok 0) rfl
  refine ⟨read, rfl, fun claimed => ?_⟩
  have agree := claimed gauge true "level" (.int 2) rfl bare rfl
  rw [read] at agree
  cases agree

end Access
end SceneEdit
