import SceneEdit.Proofs.Path.Batch
import SceneEdit.Proofs.Session.Plan
import SceneEdit.Proofs.Session.Telling
import SceneEdit.Proofs.Value.Entries

/-!
# Batches on several entities

A batch of entries is tried on each target in turn, in the first capability of the type that the
target has. Targets are distinct, so what is done to one of them is neither seen by the next nor
changed by it (`Scene.changeFirsts_append`), and each starts from the state that it had in the
beginning. The scene in the end is therefore told by what the entries make of a single state, and
so are the report and the notes.
-/

namespace SceneEdit

/-! ### First capabilities -/

namespace Capability

variable {fullName : TypeName} {first : Capability}

/-- Capabilities with the state of the first one of a type changed. -/
def changeFirst (fullName : TypeName) (change : Object → Object) :
    List Capability → List Capability
  | [] => []
  | capability :: rest =>
    if capability.type.fullName = fullName then
      { capability with state := change capability.state } :: rest
    else capability :: changeFirst fullName change rest

theorem find?_changeFirst (change : Object → Object) (capabilities : List Capability) :
    (changeFirst fullName change capabilities).find?
        (fun capability => capability.type.fullName = fullName) =
      (capabilities.find? fun capability => capability.type.fullName = fullName).map
        fun capability => { capability with state := change capability.state } := by
  induction capabilities with
  | nil => rfl
  | cons capability rest ih =>
      rw [changeFirst]
      by_cases here : capability.type.fullName = fullName
      · simp [here]
      · simp [here, ih]

/-- Where identities are distinct, the first one is changed by its identity. -/
theorem map_eq_changeFirst {capabilities : List Capability}
    (distinct : (capabilities.map Capability.id).Nodup)
    (found : capabilities.find? (fun capability => capability.type.fullName = fullName) =
      some first) (change : Object → Object) :
    (capabilities.map fun capability =>
      if capability.id = first.id then { capability with state := change first.state }
      else capability) = changeFirst fullName change capabilities := by
  induction capabilities with
  | nil => cases found
  | cons capability rest ih =>
      obtain ⟨new, distinct⟩ := List.nodup_cons.mp distinct
      rw [List.map_cons, changeFirst]
      by_cases here : capability.type.fullName = fullName
      · rw [List.find?_cons_of_pos (by simpa using here), Option.some.injEq] at found
        subst found
        rw [if_pos rfl, if_pos here]
        refine congrArg _ ((List.map_congr_left fun other member => if_neg ?_).trans
          (List.map_id _))
        exact fun same => new (List.mem_map.mpr ⟨other, member, same⟩)
      · rw [List.find?_cons_of_neg (by simpa using here)] at found
        have other : capability.id ≠ first.id := fun same =>
          new (List.mem_map.mpr ⟨first, List.mem_of_find?_eq_some found, same.symm⟩)
        rw [if_neg other, if_neg here, ih distinct found]

end Capability

/-- The entity with the state of its first capability of a type changed. -/
def Entity.changeFirst (entity : Entity) (fullName : TypeName) (change : Object → Object) :
    Entity :=
  { entity with capabilities := Capability.changeFirst fullName change entity.capabilities }

namespace Scene

variable {scene : Scene} {fullName : TypeName} {change : Object → Object} {ids : List EntityId}
variable {id : EntityId} {first : Capability}

/-- The first capability of a type that an entity has. -/
def firstOf? (scene : Scene) (fullName : TypeName) (id : EntityId) : Option Capability :=
  (scene.entity? id).bind fun entity =>
    entity.capabilities.find? fun capability => capability.type.fullName = fullName

/-- The scene with the states of first capabilities of a type changed. -/
def changeFirsts (scene : Scene) (fullName : TypeName) (change : Object → Object)
    (ids : List EntityId) : Scene :=
  { scene with
    entities := scene.entities.map fun entity =>
      if entity.id ∈ ids then entity.changeFirst fullName change else entity }

theorem changeFirsts_nil : scene.changeFirsts fullName change [] = scene := by
  simp [changeFirsts]

theorem entity?_changeFirsts :
    (scene.changeFirsts fullName change ids).entity? id = (scene.entity? id).map fun entity =>
      if entity.id ∈ ids then entity.changeFirst fullName change else entity := by
  have keepsId : ∀ entity : Entity,
      (if entity.id ∈ ids then entity.changeFirst fullName change else entity).id = entity.id := by
    intro entity
    split <;> rfl
  rw [entity?, entity?, changeFirsts, List.find?_map]
  simp only [Function.comp_def, keepsId]

/-- Other entities are as they were. -/
theorem entity?_changeFirsts_of_not_mem (outside : id ∉ ids) :
    (scene.changeFirsts fullName change ids).entity? id = scene.entity? id := by
  rw [entity?_changeFirsts]
  refine (Option.map_congr fun entity found => if_neg ?_).trans Option.map_id'
  rw [(mem_of_entity? found).2]
  exact outside

theorem map_id_changeFirsts :
    (scene.changeFirsts fullName change ids).entities.map Entity.id =
      scene.entities.map Entity.id := by
  rw [changeFirsts, List.map_map]
  refine List.map_congr_left fun entity _ => ?_
  rw [Function.comp_apply]
  split <;> rfl

theorem firstOf?_changeFirsts (among : id ∈ ids) (has : scene.firstOf? fullName id = some first) :
    (scene.changeFirsts fullName change ids).firstOf? fullName id =
      some { first with state := change first.state } := by
  obtain ⟨owner, found, here⟩ := Option.bind_eq_some_iff.mp has
  rw [firstOf?, entity?_changeFirsts, found, Option.map_some, Option.bind_some,
    (mem_of_entity? found).2, if_pos among, Entity.changeFirst, Capability.find?_changeFirst, here]
  rfl

/-- What is done to one more entity starts from the state that it had. -/
theorem changeFirsts_append (wf : scene.WellFormed) (has : scene.firstOf? fullName id = some first)
    (new : id ∉ ids) :
    (scene.changeFirsts fullName change ids).modify id
        (fun entity => entity.setState first.id (change first.state)) =
      scene.changeFirsts fullName change (ids ++ [id]) := by
  obtain ⟨owner, found, here⟩ := Option.bind_eq_some_iff.mp has
  obtain ⟨member, rfl⟩ := mem_of_entity? found
  rw [modify, changeFirsts, changeFirsts]
  congr 1
  rw [List.map_map]
  refine List.map_congr_left fun entity inside => ?_
  rw [Function.comp_apply]
  by_cases this : entity.id = owner.id
  · obtain rfl := wf.eq_of_id inside member this
    have distinct := (List.nodup_flatMap.mp wf.capabilities_nodup).1 entity inside
    rw [if_neg new, if_pos rfl, if_pos (List.mem_append_right _ (List.mem_singleton_self _)),
      Entity.setState, Capability.map_eq_changeFirst distinct here]
    rfl
  · have other : entity.id ∈ ids ++ [owner.id] ↔ entity.id ∈ ids := by simp [this]
    simp only [other]
    refine if_neg ?_
    split
    · exact this
    · exact this

end Scene

namespace Host

variable {host : Host} {scene : Scene} {type : Descriptor}

theorem firstOf?_of_capabilityOf {id : EntityId} {first : Capability}
    (found : host.capabilityOf scene type id = .ok first) :
    scene.firstOf? type.fullName id = some first := by
  obtain ⟨entity, shown, has⟩ := bind_eq_ok_iff.mp found
  rw [record, Host.entity?] at shown
  rw [Scene.firstOf?]
  split at shown
  · rename_i here
    cases shown
    split at here
    · cases here
    · rw [here, Option.bind_some]
      split at has
      · rename_i is
        cases has
        exact is
      · cases has
  · cases shown

theorem exists_firsts {ids : List EntityId} {pairs : List (EntityId × CapabilityId)}
    (found : host.capabilitiesOf scene type ids = .ok pairs) :
    ∃ firsts : List (EntityId × Capability), firsts.map Prod.fst = ids ∧
      pairs = firsts.map (fun owner => (owner.1, owner.2.id)) ∧
      ∀ owner ∈ firsts, scene.firstOf? type.fullName owner.1 = some owner.2 := by
  induction ids generalizing pairs with
  | nil =>
      cases found
      exact ⟨[], rfl, rfl, by simp⟩
  | cons id rest ih =>
      unfold capabilitiesOf at found ih
      rw [List.mapM_cons] at found
      obtain ⟨pair, here, found⟩ := bind_eq_ok_iff.mp found
      obtain ⟨others, later, found⟩ := bind_eq_ok_iff.mp found
      cases found
      obtain ⟨first, has, same⟩ := bind_eq_ok_iff.mp here
      cases same
      obtain ⟨firsts, rfl, rfl, owned⟩ := ih later
      exact ⟨(id, first) :: firsts, rfl, rfl,
        List.forall_mem_cons.mpr ⟨firstOf?_of_capabilityOf has, owned⟩⟩

end Host

namespace Editor

open Edit Scene

variable {editor : Editor} {base : Scene} {session : Session} {type : Descriptor}

/-! ### One target after the other -/

/-- The notes of a batch: one for each capability that something was written into. -/
def batchNotes (editor : Editor) (entries : Entries) (firsts : List (EntityId × Capability)) :
    List Note :=
  firsts.flatMap fun owner =>
    if (editor.access.written owner.2.state entries).isEmpty then []
    else [.wrote owner.1 owner.2.id]

/-- The report of a batch: what was written and what failed, one entity after the other. -/
def batchReport (editor : Editor) (type : Descriptor) (entries : Entries)
    (firsts : List (EntityId × Capability)) : BatchReport where
  applied := firsts.flatMap fun owner =>
    (editor.access.written owner.2.state entries).map fun entry => ⟨owner.1, entry.1⟩
  failures := firsts.flatMap fun owner =>
    (editor.access.failed owner.2.state entries).map fun failure =>
      ⟨owner.1, failure.1, type.fullName, failure.2.error⟩

theorem writeEach_outcome {id : EntityId} {capability : CapabilityId} (entries : Entries) :
    WP (editor.writeEach id type capability entries)
      (fun batch left => ∃ was, session.scene.Holds id capability was ∧
        left.scene = session.scene.modify id
          (fun entity => entity.setState capability (editor.access.tried was entries)) ∧
        left.notes = session.notes ++
          (if (editor.access.written was entries).isEmpty then [] else [.wrote id capability]) ∧
        batch = ⟨(editor.access.written was entries).map fun entry => ⟨id, entry.1⟩,
          (editor.access.failed was entries).map fun failure =>
            ⟨id, failure.1, type.fullName, failure.2.error⟩⟩)
      (fun _ _ => True) session := by
  rw [writeEach, WP.bind_iff]
  refine (stateOf_finds session).mono ?_ fun _ _ _ => trivial
  rintro was left ⟨rfl, holds⟩
  refine WP.bind_iff.mpr (WP.modifyEntity_iff.mpr (WP.bind_iff.mpr (WP.ofAttempt_iff.mpr ?_)))
  dsimp only
  rw [Access.object_writeEach, Access.ofOutcomes_writeEach]
  simp only [List.isEmpty_map]
  cases nothing : (editor.access.written was entries).isEmpty with
  | true =>
      refine WP.pure_iff.mpr ⟨was, holds, rfl, ?_, rfl⟩
      rw [nothing]
      exact (List.append_nil _).symm
  | false =>
      refine WP.bind_iff.mpr (WP.note_iff.mpr (WP.pure_iff.mpr ⟨was, holds, rfl, ?_, rfl⟩))
      rw [nothing]
      rfl

/-- A capability that is the first of its type is in the state that it was found in. -/
theorem state_eq_of_holds (wf : base.WellFormed) {fullName : TypeName} {id : EntityId}
    {first : Capability} {scene : Scene} {state : Object}
    (has : base.firstOf? fullName id = some first) (same : scene.entity? id = base.entity? id)
    (holds : scene.Holds id first.id state) : state = first.state := by
  obtain ⟨entity, attached, found, here, rfl⟩ := holds
  rw [same] at found
  rw [firstOf?, found, Option.bind_some] at has
  obtain ⟨member, -⟩ := mem_of_entity? found
  obtain ⟨is, sameId⟩ := Entity.mem_of_attached? here
  rw [(wf.eq_of_capability member member is (List.mem_of_find?_eq_some has) sameId).2]

theorem holds_of_firstOf? (wf : base.WellFormed) {fullName : TypeName} {id : EntityId}
    {first : Capability} {scene : Scene} (has : base.firstOf? fullName id = some first)
    (same : scene.entity? id = base.entity? id) : scene.Holds id first.id first.state := by
  obtain ⟨entity, found, here⟩ := Option.bind_eq_some_iff.mp has
  obtain ⟨attached, given⟩ := Entity.exists_attached? (List.mem_of_find?_eq_some here)
  have holds : scene.Holds id first.id attached.state :=
    ⟨entity, attached, same.trans found, given, rfl⟩
  rwa [state_eq_of_holds wf has same holds] at holds

theorem capabilityOf_runs (views : editor.host.Grants .viewEntity) {id : EntityId}
    {first : Capability} (has : session.scene.firstOf? type.fullName id = some first) :
    WP (editor.capabilityOf type id)
      (fun found left => found = first ∧ left.scene = session.scene ∧ left.notes = session.notes)
      (fun _ _ => False) session := by
  obtain ⟨entity, found, here⟩ := Option.bind_eq_some_iff.mp has
  have given : editor.host.capabilityOf session.scene type id = .ok first := by
    refine bind_eq_ok_iff.mpr ⟨entity, ?_, ?_⟩
    · rw [Host.record, views.entity?, found]
    · rw [Entity.capability?, here]
  rw [capabilityOf, WP.bind_iff, WP.scene_iff, WP.ofExcept_iff, given]
  exact ⟨rfl, rfl, rfl⟩

/-- A batch on capabilities of distinct entities, each the first of its type. -/
theorem writeEachTo_outcome (wf : base.WellFormed) (entries : Entries)
    {firsts : List (EntityId × Capability)}
    (owned : ∀ owner ∈ firsts, base.firstOf? type.fullName owner.1 = some owner.2)
    {done : List EntityId} (distinct : (done ++ firsts.map Prod.fst).Nodup)
    (same : session.scene = base.changeFirsts type.fullName
      (fun state => editor.access.tried state entries) done) :
    WP (editor.writeEachTo type entries (firsts.map fun owner => (owner.1, owner.2.id)))
      (fun batch left => left.scene = base.changeFirsts type.fullName
          (fun state => editor.access.tried state entries) (done ++ firsts.map Prod.fst) ∧
        left.notes = session.notes ++ editor.batchNotes entries firsts ∧
        batch = editor.batchReport type entries firsts)
      (fun _ _ => True) session := by
  induction firsts generalizing session done with
  | nil =>
      refine WP.pure_iff.mpr ⟨?_, (List.append_nil _).symm, rfl⟩
      rw [List.map_nil, List.append_nil]
      exact same
  | cons owner rest ih =>
      obtain ⟨here, owned⟩ := List.forall_mem_cons.mp owned
      have new : owner.1 ∉ done := by
        have apart := (List.nodup_append.mp distinct).2.2
        exact fun old => apart _ old _ List.mem_cons_self rfl
      rw [List.map_cons, List.append_cons done] at distinct
      rw [List.map_cons, writeEachTo, WP.bind_iff]
      refine (writeEach_outcome entries).mono ?_ fun _ _ _ => trivial
      rintro batch left ⟨was, holds, scene, notes, rfl⟩
      obtain rfl : was = owner.2.state := by
        rw [same] at holds
        exact state_eq_of_holds wf here (entity?_changeFirsts_of_not_mem new) holds
      rw [same, changeFirsts_append wf here new] at scene
      rw [WP.bind_iff, List.map_cons, List.append_cons done]
      refine (ih owned distinct scene).mono ?_ fun _ _ _ => trivial
      rintro others after ⟨scene, told, rfl⟩
      refine WP.pure_iff.mpr ⟨scene, ?_, rfl⟩
      rw [told, notes, List.append_assoc]
      rfl

/-- Every field on every entity is reported once, in the order of the entities and then of the
fields. -/
theorem batchReport_fields (type : Descriptor) (entries : Entries)
    (firsts : List (EntityId × Capability)) :
    let batch := editor.batchReport type entries firsts
    let written := batch.applied.map fun write => (write.entity, write.field)
    let failed := batch.failures.map fun failure => (failure.entity, failure.field)
    written.Sublist (firsts.map Prod.fst ×ˢ entries.keys) ∧
      failed.Sublist (firsts.map Prod.fst ×ˢ entries.keys) ∧
      (written ++ failed).Perm (firsts.map Prod.fst ×ˢ entries.keys) := by
  intro batch written failed
  have all : firsts.map Prod.fst ×ˢ entries.keys =
      firsts.flatMap fun owner => entries.keys.map (Prod.mk owner.1) := List.flatMap_map ..
  have writtenEq : written = firsts.flatMap fun owner =>
      (editor.access.written owner.2.state entries).keys.map (Prod.mk owner.1) := by
    simp only [written, batch, batchReport, List.map_flatMap, List.map_map, Entries.keys]
    rfl
  have failedEq : failed = firsts.flatMap fun owner =>
      ((editor.access.failed owner.2.state entries).map Prod.fst).map (Prod.mk owner.1) := by
    simp only [failed, batch, batchReport, List.map_flatMap, List.map_map]
    rfl
  rw [all, writtenEq, failedEq]
  refine ⟨?_, ?_, ?_⟩
  · exact List.Sublist.flatMap_right _ fun owner _ =>
      ((editor.access.written_sublist owner.2.state entries).map Prod.fst).map _
  · exact List.Sublist.flatMap_right _ fun owner _ =>
      (editor.access.failed_sublist owner.2.state entries).map _
  · refine (List.flatMap_append_perm firsts _ _).trans (List.Perm.flatMap_left _ fun owner _ => ?_)
    rw [← List.map_append]
    exact (editor.access.written_append_failed_perm owner.2.state entries).map _

/-- Whatever becomes of the entries, the request succeeds once everything that it names is found. -/
theorem setProperties_succeeds (wf : session.scene.WellFormed)
    (edits : editor.host.Grants .editEntity) {params : SetProperties}
    {targets : List EntityId} {attached : List (EntityId × CapabilityId)}
    {middle resolved : Session} (some : params.entries.isEmpty = false)
    (searched : (editor.targets params.target).run session = (.ok targets, middle))
    (named : (editor.capabilityType params.capability).run middle = (.ok type, resolved))
    (found : editor.host.capabilitiesOf session.scene type targets = .ok attached) :
    ∃ report after, (editor.setProperties params).run session = (.ok report, after) := by
  have middleScene : middle.scene = session.scene :=
    (editor.targets_keeps (P := fun scene _ => scene = session.scene) _ session rfl).ok searched
  have sameScene : resolved.scene = session.scene :=
    (editor.capabilityType_keeps (P := fun scene _ => scene = session.scene) _ middle
      middleScene).ok named
  have succeeds : WP (editor.setProperties params) (fun _ _ => True) (fun _ _ => False)
      session := by
    rw [setProperties, if_neg (by simp [some])]
    refine WP.bind_of_run searched (WP.bind_of_run named ?_)
    rw [capabilitiesOf, WP.bind_iff, WP.bind_iff, WP.scene_iff, sameScene, WP.ofExcept_iff, found]
    have carried := (Host.capabilitiesOf_eq_ok wf found).2
    have writes := writeEachTo_succeeds edits type params.entries (List.Subset.refl attached)
      (resolved.log []) (fun pair member => sameScene.symm ▸ carried pair member)
    exact WP.bind_iff.mpr (writes.mono (fun _ _ _ => WP.pure_iff.mpr trivial) fun _ _ h => h)
  obtain ⟨report, after, ran, -⟩ := succeeds.exists_ok
  exact ⟨report, after, ran⟩

/-- The entries of a request are its map, with the single pair, if there is one, stored after it. -/
theorem entries_stored (params : SetProperties) :
    (params.property = none → params.entries = params.properties) ∧
    ∀ property, params.property = some property →
      params.properties.Stored property (params.value.getD .null) params.entries := by
  refine ⟨fun none => ?_, fun property pair => ?_⟩
  · rw [SetProperties.entries, none]
  · rw [SetProperties.entries, pair]
    exact params.properties.stored_insert property _

/-- In every reachable scene, a request that sets properties tries its entries in turn on each
target, in the first capability of the type that the target has, and an entry that fails leaves the
state as it was; nothing else in the scene changes. The entries are those of the map and the single
pair, which takes the place of an entry with the same key and comes last otherwise. Every field on
every target is reported once, as written or as failed, in the order of the targets and then of the
entries, and a note is sent of those targets where something was written. On each target the entries
that were written lead to the same state without the others, and none of them fails. -/
theorem setProperties_tries_each (reached : session.scene.Reachable) {params : SetProperties}
    {report : PropertyReport} {after : Session}
    (ran : (editor.setProperties params).run session = (.ok report, after)) :
    ∃ entries : Entries,
      (params.property = none → entries = params.properties) ∧
      (∀ property, params.property = some property →
        params.properties.Stored property (params.value.getD .null) entries) ∧
      ∃ middle type firsts,
        (editor.targets params.target).run session = (.ok report.entities, middle) ∧
        ((editor.capabilityType params.capability).run middle).1 = .ok type ∧
        report.capability = type.fullName ∧ report.entities.Nodup ∧
        firsts.map Prod.fst = report.entities ∧
        (∀ owner ∈ firsts, session.scene.firstOf? type.fullName owner.1 = some owner.2) ∧
        after.scene = session.scene.changeFirsts type.fullName
          (fun state => editor.access.tried state entries) report.entities ∧
        after.notes = session.notes ++ editor.batchNotes entries firsts ∧
        report.batch = editor.batchReport type entries firsts ∧
        (let written := report.batch.applied.map fun write => (write.entity, write.field)
          let failed := report.batch.failures.map fun failure => (failure.entity, failure.field)
          written.Sublist (report.entities ×ˢ entries.keys) ∧
            failed.Sublist (report.entities ×ˢ entries.keys) ∧
            (written ++ failed).Perm (report.entities ×ˢ entries.keys)) ∧
        ∀ owner ∈ firsts,
          let final := editor.access.tried owner.2.state entries
          after.scene.firstOf? type.fullName owner.1 = some { owner.2 with state := final } ∧
            (editor.access.written owner.2.state entries).foldlM
              (fun state entry => (editor.access.write state entry.1 entry.2).result)
              owner.2.state = .ok final := by
  have wf := reached.wellFormed
  rw [setProperties] at ran
  split at ran
  · obtain ⟨_, _, failed, -⟩ := run_bind_eq_ok_iff.mp ran
    cases failed
  obtain ⟨targets, middle, searched, ran⟩ := run_bind_eq_ok_iff.mp ran
  obtain ⟨type, resolved, named, ran⟩ := run_bind_eq_ok_iff.mp ran
  obtain ⟨attached, ready, lookedUp, ran⟩ := run_bind_eq_ok_iff.mp ran
  obtain ⟨batch, left, wrote, ran⟩ := run_bind_eq_ok_iff.mp ran
  cases ran
  -- Until the first entity is written to, nothing changes.
  let unchanged : Scene → List Note → Prop := fun scene notes =>
    scene = session.scene ∧ notes = session.notes
  have searching : unchanged middle.scene middle.notes :=
    (editor.targets_keeps (P := unchanged) _ session ⟨rfl, rfl⟩).ok searched
  have naming : unchanged resolved.scene resolved.notes :=
    (editor.capabilityType_keeps (P := unchanged) _ middle searching).ok named
  obtain ⟨scene, notes⟩ : unchanged ready.scene ready.notes :=
    (editor.capabilitiesOf_keeps (P := unchanged) type targets resolved naming).ok lookedUp
  have found : editor.host.capabilitiesOf session.scene type targets = .ok attached :=
    (Finds.ofScene (fun _ answer => answer) resolved naming.1).ok lookedUp
  obtain ⟨firsts, rfl, rfl, owned⟩ := Host.exists_firsts found
  have distinct := ((targets_finds _ _ session rfl).ok searched).1
  have wrote := (writeEachTo_outcome wf params.entries owned distinct
    (scene.trans changeFirsts_nil.symm)).ok wrote
  obtain ⟨changed, told, rfl⟩ := wrote
  obtain ⟨alone, pair⟩ := entries_stored params
  refine ⟨params.entries, alone, pair, middle, type, firsts, searched, congrArg Prod.fst named,
    rfl, distinct, rfl, owned, changed, notes ▸ told, rfl,
    batchReport_fields type params.entries firsts, ?_⟩
  intro owner member
  refine ⟨?_, editor.access.foldlM_written _ _⟩
  rw [changed]
  exact firstOf?_changeFirsts (List.mem_map_of_mem member) (owned owner member)

/-- A batch on a dimmer in which the pair overrides an entry of the map and another entry fails: the
two fields are reported once each, and the value of the pair is what the field has afterwards. -/
theorem setProperties_tries_each_of_dimmer :
    let type : Descriptor := ⟨⟨"Dimmer"⟩, "Game", .capability⟩
    let editor : Editor := { host := { env := { catalog :=
      { modules := [("Game", .preferred)], entries := [⟨type, none⟩] } } } }
    let lamp := ({} : Scene).after (.create "Lamp" none)
    let session : Session := { scene := lamp.after (.attach ⟨1⟩ type (Access.dimmer 20)) }
    let params : SetProperties := ⟨{ term := "Lamp" }, "Dimmer",
      [("levels[1]", .int 10), ("levels[2]", .int 5)], some "levels[1]", some (.int 30)⟩
    ∃ report after, (editor.setProperties params).run session = (.ok report, after) ∧
      ((report.batch.applied.map fun write => (write.entity, write.field)) ++
        report.batch.failures.map fun failure => (failure.entity, failure.field)).Perm
          [(⟨1⟩, "levels[1]"), (⟨1⟩, "levels[2]")] ∧
      ∃ dimmer, after.scene.firstOf? type.fullName ⟨1⟩ = some dimmer ∧
        (editor.access.read dimmer.state "levels[1]").result = .ok (.int 30) := by
  intro type editor lamp session params
  have reached : session.scene.Reachable :=
    ((Reachable.fresh _ none).step (.create "Lamp" none)).step
      (.attach ⟨1⟩ type (Access.dimmer 20))
  have finds : ((editor.targets params.target).run session).1 = .ok [⟨1⟩] := by
    decide +kernel
  have names : ((editor.capabilityType params.capability).run
      ((editor.targets params.target).run session).2).1 = .ok type := by
    decide +kernel
  have found : editor.host.capabilitiesOf session.scene type [⟨1⟩] = .ok [(⟨1⟩, ⟨1⟩)] := by
    decide +kernel
  have place : editor.access.locate (Access.dimmer 20) "levels[1]" =
      some [.member 1, .item 1] := by
    decide +kernel
  have place' : editor.access.locate (Access.dimmer 30) "levels[1]" =
      some [.member 1, .item 1] := by
    decide +kernel
  have nowhere : editor.access.locate (Access.dimmer 30) "levels[2]" = none := by
    decide +kernel
  have given : session.scene.firstOf? type.fullName ⟨1⟩ = some ⟨⟨1⟩, type, Access.dimmer 20⟩ := by
    rfl
  -- The sessions in between are not to be computed again.
  generalize searched : (editor.targets params.target).run session = searching at finds names
  obtain ⟨_, middle⟩ := searching
  subst finds
  generalize named : (editor.capabilityType params.capability).run middle = naming at names
  obtain ⟨_, resolved⟩ := naming
  subst names
  obtain ⟨report, after, ran⟩ := @setProperties_succeeds editor session type reached.wellFormed
    (Host.grants_of_plain rfl _) params _ _ _ _ rfl searched named found
  obtain ⟨entries, -, pair, _, _, firsts, searched', named', -, -, owners, owned, -, -, -,
    ⟨-, -, fields⟩, final⟩ := setProperties_tries_each reached ran
  obtain ⟨targets, rfl⟩ := Prod.mk.inj (searched.symm.trans searched')
  rw [named] at named'
  cases named'
  obtain rfl : entries = [("levels[1]", .int 30), ("levels[2]", .int 5)] :=
    (pair "levels[1]" rfl).eq_insert
  have only : report.entities = [⟨1⟩] := (Except.ok.inj targets).symm
  obtain ⟨⟨_, first⟩, rfl, rfl⟩ := List.map_eq_singleton_iff.mp (owners.trans only)
  obtain ⟨held, -⟩ := final _ (List.mem_singleton_self _)
  obtain rfl := Option.some.inj ((owned _ (List.mem_singleton_self _)).symm.trans given)
  have tried : editor.access.tried (Access.dimmer 20)
      [("levels[1]", .int 30), ("levels[2]", .int 5)] = Access.dimmer 30 := by
    rw [Access.tried, List.foldl_cons, Access.attempted_of_ok (Access.write_dimmer place)]
    exact Access.attempted_of_nowhere nowhere (.int 5)
  rw [only] at fields
  refine ⟨report, after, ran, fields, _, held, ?_⟩
  rw [tried]
  exact Access.read_eq_ok_iff.mpr ⟨_, place', rfl⟩

end Editor
end SceneEdit
