import SceneEdit.Proofs.Session.Ledger

/-!
# Changes and their notes

What the steps of an operation change and which notes they send, one entity after the other: writing
into capabilities, detaching them, and carrying out a plan on an entity.
-/

namespace SceneEdit

theorem BatchReport.applied_ofOutcomes_eq_nil {entity : EntityId} {name : TypeName}
    {outcomes : List (String × Option Report)} :
    (BatchReport.ofOutcomes entity name outcomes).applied = [] ↔
      ∀ outcome ∈ outcomes, outcome.2.isNone = false := by
  simp [BatchReport.ofOutcomes, List.filterMap_eq_nil_iff, Option.isSome_iff_ne_none]

/-- A batch that writes nothing leaves the object as it was. -/
theorem Access.writeEach_object {access : Access} {complaint : String → Error → Event}
    {object : Object} {entries : Entries}
    (none : ∀ outcome ∈ (access.writeEach complaint object entries).outcomes,
      outcome.2.isNone = false) :
    (access.writeEach complaint object entries).object = object := by
  induction entries with
  | nil => rfl
  | cons entry rest ih =>
      rw [writeEach] at none ⊢
      dsimp only at none ⊢
      split at none
      · exact absurd (none _ List.mem_cons_self) (by simp)
      · exact ih fun outcome member => none outcome (List.mem_cons_of_mem _ member)

namespace RecordChange

theorem apply_of_isEmpty {change : RecordChange} (empty : change.isEmpty = true) (entity : Entity) :
    change.apply entity = entity := by
  simp only [isEmpty, Bool.and_eq_true, Option.isNone_iff_eq_none] at empty
  obtain ⟨⟨⟨name, tag⟩, layer⟩, active⟩ := empty
  rw [apply, name, tag, layer, active]
  rfl

end RecordChange

namespace Editor

open Edit Scene

variable {editor : Editor} {base : Scene} {notes : List Note} {id : EntityId}
variable {capability : CapabilityId} {type : Descriptor} {session : Session}
variable {ahead further : Note → Prop}

/-! ### Writing -/

theorem stateOf_finds (session : Session) :
    WP (editor.stateOf id capability)
      (fun state left => left = session ∧ session.scene.Holds id capability state)
      (fun _ left => left = session) session := by
  rw [stateOf, WP.bind_iff, WP.scene_iff, WP.ofOption_iff]
  cases found : ((editor.host.editableEntity? session.scene id).bind fun record =>
      record.attached? capability) with
  | none => rfl
  | some attached =>
      obtain ⟨entity, shown, here⟩ := Option.bind_eq_some_iff.mp found
      refine ⟨rfl, entity, attached, ?_, here, rfl⟩
      rw [Host.editableEntity?] at shown
      split at shown
      · cases shown
      · exact shown

/-- A batch writes one capability, and tells of it unless the state is as it was. -/
theorem writeEach_writes (entries : Entries) :
    WP (editor.writeEach id type capability entries)
      (fun _ left => ∃ was state, session.scene.Holds id capability was ∧
        left.scene = session.scene.modify id (fun entity => entity.setState capability state) ∧
        (left.notes = session.notes ++ [.wrote id capability] ∨
          left.notes = session.notes ∧ state = was))
      (fun _ left => left = session) session := by
  rw [writeEach, WP.bind_iff]
  refine (stateOf_finds session).mono ?_ fun _ _ h => h
  rintro was left ⟨rfl, holds⟩
  refine WP.bind_iff.mpr (WP.modifyEntity_iff.mpr (WP.bind_iff.mpr (WP.ofAttempt_iff.mpr ?_)))
  dsimp only
  split
  · rw [WP.bind_iff, WP.note_iff, WP.pure_iff]
    exact ⟨was, _, holds, rfl, Or.inl rfl⟩
  · rename_i empty
    refine WP.pure_iff.mpr ⟨was, _, holds, rfl, Or.inr ⟨rfl, Access.writeEach_object ?_⟩⟩
    exact BatchReport.applied_ofOutcomes_eq_nil.mp (by simpa using empty)

/-- Writing one entry writes one capability, or nothing if it fails. -/
theorem writeAll_writes_one (field : String) (token : Token) :
    WP (editor.writeAll id type capability [(field, token)])
      (fun _ left => ∃ was state, session.scene.Holds id capability was ∧
        left.scene = session.scene.modify id (fun entity => entity.setState capability state) ∧
        left.notes = session.notes)
      (fun _ left => left.notes = session.notes ∧ (left.scene = session.scene ∨
        ∃ was, session.scene.Holds id capability was ∧ left.scene =
          session.scene.modify id fun entity => entity.setState capability was)) session := by
  rw [writeAll, WP.bind_iff]
  refine (stateOf_finds session).mono ?_ ?_
  · rintro was left ⟨rfl, holds⟩
    refine WP.bind_iff.mpr (WP.modifyEntity_iff.mpr (WP.ofAttempt_iff.mpr ?_))
    simp only [Access.writeAll]
    cases (editor.access.write was field token).result with
    | error report => exact ⟨rfl, Or.inr ⟨was, holds, rfl⟩⟩
    | ok state => exact ⟨was, state, holds, rfl, rfl⟩
  · rintro report left rfl
    exact ⟨rfl, Or.inl rfl⟩

section

variable (wf : base.WellFormed)
include wf

theorem writeEach_owes (entries : Entries)
    (owing : base.Owing notes [] ahead session.scene session.notes)
    (next : ahead (.wrote id capability))
    (fewer : ∀ other, further other → ahead other ∧ other ≠ .wrote id capability) :
    WP (editor.writeEach id type capability entries)
      (fun _ left => base.Owing notes [] further left.scene left.notes)
      (fun _ left => base.Owing notes [] further left.scene left.notes) session := by
  have quiet : base.Owing notes [] further session.scene session.notes :=
    owing.mono (List.Subset.refl _) fun other follows => (fewer other follows).1
  refine (writeEach_writes entries).mono ?_ ?_
  · rintro report left ⟨was, state, holds, scene, sent | ⟨sent, rfl⟩⟩
    · rw [scene, sent]
      refine owing.tell (fun may told tracks => tracks.setState told state) next fewer ?_
      rintro entity attached same
      cases same
      exact holds.owns wf owing.later
    · rw [scene, sent, holds.setState_eq owing.later.wellFormed]
      exact quiet
  · rintro report left rfl
    exact quiet

/-- Batches on distinct entities. -/
theorem writeEachTo_owes (entries : Entries) {pairs : List (EntityId × CapabilityId)}
    (distinct : (pairs.map Prod.fst).Nodup)
    (owing : base.Owing notes [] (About (pairs.map Prod.fst)) session.scene session.notes) :
    WP (editor.writeEachTo type entries pairs)
      (fun _ left => base.Owing notes [] (About []) left.scene left.notes)
      (fun _ left => base.Owing notes [] (About []) left.scene left.notes) session := by
  induction pairs generalizing session with
  | nil => exact WP.pure_iff.mpr owing
  | cons pair rest ih =>
      obtain ⟨new, distinct⟩ := List.nodup_cons.mp distinct
      rw [writeEachTo, WP.bind_iff]
      have fewer := @About.tail (rest.map Prod.fst) (.wrote pair.1 pair.2) new
      refine (writeEach_owes wf entries owing List.mem_cons_self fewer).mono ?_ ?_
      · intro report left owing
        rw [WP.bind_iff]
        exact (ih distinct owing).mono (fun _ _ h => WP.pure_iff.mpr h) fun _ _ h => h
      · exact fun report left owing => owing.stop

/-! ### Moving in space -/

theorem writePosition_owes (position : Vector3)
    (owing : base.Owing notes [] ahead session.scene session.notes) :
    WP (editor.writePosition type position id)
      (fun capability left => base.Owns id capability ∧
        base.Owing notes [.wrote id capability] ahead left.scene left.notes)
      (fun _ left => base.Owing notes [] ahead left.scene left.notes) session := by
  rw [writePosition, WP.bind_iff]
  refine (editor.capabilityOf_keeps type id session owing).mono ?_ fun _ _ h => h
  intro transform left owing
  rw [WP.bind_iff]
  refine (writeAll_writes_one _ _).mono ?_ ?_
  · rintro _ after ⟨was, state, holds, scene, sent⟩
    refine WP.pure_iff.mpr ⟨holds.owns wf owing.later, ?_⟩
    rw [scene, sent]
    refine (owing.mono (List.nil_subset _) fun _ next => next).change fun may told tracks => ?_
    exact tracks.setState (told _ (List.mem_singleton_self _)) state
  · rintro report after ⟨sent, scene | ⟨was, holds, scene⟩⟩
    · rw [scene, sent]
      exact owing
    · rw [scene, sent, holds.setState_eq owing.later.wellFormed]
      exact owing

/-- Moves of distinct entities, each told by a note about its transform. -/
theorem writePositions_owe {position : Vector3} {text : EntityId → String} {ids : List EntityId}
    (distinct : ids.Nodup)
    (owing : base.Owing notes [] (About ids) session.scene session.notes) :
    WP (ids.forM fun id => do
        let transform ← editor.writePosition type position id
        .note (.wrote id transform)
        .tell .info .placement (text id))
      (fun _ left => base.Owing notes [] (About []) left.scene left.notes)
      (fun _ left => base.Owing notes [] (About []) left.scene left.notes) session := by
  induction ids generalizing session with
  | nil => exact WP.pure_iff.mpr owing
  | cons id rest ih =>
      obtain ⟨new, distinct⟩ := List.nodup_cons.mp distinct
      rw [List.forM_eq_forM, List.forM_cons, WP.bind_iff, WP.bind_iff]
      refine (writePosition_owes wf position owing).mono ?_ ?_
      · rintro transform left ⟨owns, owing⟩
        rw [WP.bind_iff, WP.note_iff, WP.tell_iff]
        refine ih distinct (owing.note List.mem_cons_self
          (@About.tail rest (.wrote id transform) new) ?_)
        rintro entity attached same
        cases same
        exact owns
      · exact fun report left owing => owing.stop

end

/-! ### Detaching -/

/-- Capabilities detached from distinct entities, until one is refused. -/
theorem detachEach_owes (removed : List EntityId) {pairs : List (EntityId × CapabilityId)}
    (distinct : (pairs.map Prod.fst).Nodup)
    (owing : base.Owing notes [] (About (pairs.map Prod.fst)) session.scene session.notes) :
    WP (editor.detachEach type removed pairs)
      (fun _ left => base.Owing notes [] (About []) left.scene left.notes)
      (fun _ left => base.Owing notes [] (About []) left.scene left.notes) session := by
  induction pairs generalizing session removed with
  | nil => exact WP.pure_iff.mpr owing
  | cons pair rest ih =>
      obtain ⟨new, distinct⟩ := List.nodup_cons.mp distinct
      rw [detachEach, WP.bind_iff, WP.request_iff]
      cases answer : (editor.detachRequest pair.1 pair.2 session.scene).result with
      | error refusal =>
          dsimp only
          split <;> exact WP.throw_iff.mpr owing.stop
      | ok changed =>
          have done := (detachRequest_eq_ok_iff.mp answer).2
          refine WP.bind_iff.mpr (WP.note_iff.mpr (WP.bind_iff.mpr (WP.tell_iff.mpr ?_)))
          refine ih _ distinct ?_
          refine owing.tell (fun may told tracks => tracks.detach told done) List.mem_cons_self
            (@About.tail (rest.map Prod.fst) (.changed pair.1) new) ?_
          rintro entity attached same
          cases same

/-! ### Modifying -/

/-- Capabilities are attached to the entities that they are wanted for. -/
theorem attachAll_entities (wanted : List (EntityId × Descriptor × Entries))
    {attached : List (EntityId × CapabilityId)} :
    WP (editor.attachAll attached wanted)
      (fun result _ => result.map Prod.fst = attached.map Prod.fst ++ wanted.map Prod.fst)
      (fun _ _ => True) session := by
  induction wanted generalizing attached session with
  | nil => exact WP.pure_iff.mpr (by simp)
  | cons first rest ih =>
      rw [attachAll, WP.bind_iff]
      refine (WP.true _).mono (fun capability left _ => ?_) fun _ _ h => h
      refine ih.mono (fun result _ same => ?_) fun _ _ h => h
      rw [same]
      simp

/-- Detaching what was attached leads back to a scene of which all is told. -/
theorem detachAll_owes (removes : editor.host.Grants .removeCapability) {start : Scene}
    {now : List Note} {attached : List (EntityId × CapabilityId)}
    (adds : start.AddsCapabilities attached session.scene) (later : start.Later session.scene)
    (same : session.notes = now) (owing : base.Owing notes [] ahead start now) :
    WP (editor.detachAll attached)
      (fun _ left => base.Owing notes [] ahead left.scene left.notes)
      (fun _ left => base.Owing notes [] ahead left.scene left.notes) session := by
  have undone := @detachAll_restores editor start now removes [] attached (fun _ _ => False) session
    adds same
  have keeps := editor.detachAll_keeps attached
    (fun pair _ => (later_stable start).at pair.1) session later
  refine (undone.and keeps).mono ?_ fun _ _ never => never.1.elim
  rintro _ left ⟨⟨restored, sent⟩, later⟩
  rw [sent]
  exact owing.change fun may _ tracks => tracks.agrees later restored.agrees

theorem attachAndMove_owes (removes : editor.host.Grants .removeCapability) (plan : ModifyPlan)
    (owing : base.Owing notes [] ahead session.scene session.notes) :
    WP (editor.attachAndMove id plan)
      (fun _ left => base.Owing notes
        (Note.changedIf (!plan.added.isEmpty || plan.parent.isSome) id) ahead left.scene left.notes)
      (fun _ left => base.Owing notes [] ahead left.scene left.notes) session := by
  have wf := owing.later.wellFormed
  have stable := later_stable session.scene
  let wanted := plan.added.map fun want => (id, want.1, want.2)
  have restores := attachAll_restores removes wanted (.refl wf) rfl
  have keeps := editor.attachAll_keeps stable [] wanted session (.refl wf)
  rw [attachAndMove, WP.bind_iff]
  refine ((restores.and keeps).and (attachAll_entities wanted)).mono ?_ ?_
  · rintro attached left ⟨⟨⟨adds, sent⟩, later⟩, entities⟩
    have told : ∀ pair ∈ attached, Note.changed pair.1 ∈
        Note.changedIf (!plan.added.isEmpty || plan.parent.isSome) id := by
      intro pair member
      have listed : pair.1 ∈ attached.map Prod.fst := List.mem_map_of_mem member
      simp only [entities, wanted, List.map_nil, List.nil_append, List.map_map, List.mem_map,
        Function.comp_apply] at listed
      obtain ⟨added, isAdded, rfl⟩ := listed
      exact Note.mem_changedIf (by simp [List.ne_nil_of_mem isAdded])
    have attachedOwing := (owing.mono (List.nil_subset _) fun _ next => next).change
      fun may owed tracks => tracks.attach adds later fun pair member => owed _ (told pair member)
    rw [← sent] at attachedOwing
    split
    · rename_i parent moves
      rw [WP.orUndo_iff, WP.require_iff]
      cases answer : (editor.parentRequest id parent left.scene).result with
      | ok moved =>
          refine attachedOwing.change fun may owed tracks => ?_
          exact tracks.setParent (owed _ (Note.mem_changedIf (by simp [moves])))
            (parentRequest_eq_ok_iff.mp answer).2
      | error refusal =>
          exact detachAll_owes removes adds later sent owing
    · exact WP.pure_iff.mpr attachedOwing
  · rintro report left ⟨⟨⟨agrees, sent⟩, later⟩, -⟩
    rw [sent]
    exact owing.change fun may _ tracks => tracks.agrees later agrees

theorem detachFrom_owes {changed : Bool} (removed : List CapabilityId)
    (owing : base.Owing notes (Note.changedIf changed id) ahead session.scene session.notes) :
    WP (editor.detachFrom id changed removed)
      (fun result left =>
        base.Owing notes (Note.changedIf result.1 id) ahead left.scene left.notes)
      (fun _ _ => False) session := by
  induction removed generalizing session changed with
  | nil => exact WP.pure_iff.mpr owing
  | cons capability rest ih =>
      rw [detachFrom, WP.bind_iff, WP.outcome_iff, WP.require_iff]
      cases answer : (editor.detachRequest id capability session.scene).result with
      | error refusal => exact WP.pure_iff.mpr owing
      | ok done =>
          have owed := owing.mono (Note.changedIf_subset changed id) fun _ next => next
          refine ih (owed.change fun may told tracks => ?_)
          exact tracks.detach (told _ (Note.mem_changedIf rfl))
            (detachRequest_eq_ok_iff.mp answer).2

theorem changeRecord_owes {changed : Bool} (change : RecordChange)
    (owing : base.Owing notes (Note.changedIf changed id) ahead session.scene session.notes) :
    WP (editor.changeRecord id change)
      (fun _ left => base.Owing notes (Note.changedIf (changed || !change.isEmpty) id) ahead
        left.scene left.notes)
      (fun _ left => base.Owing notes (Note.changedIf changed id) ahead left.scene left.notes)
      session := by
  rw [changeRecord, WP.bind_iff, WP.scene_iff, WP.bind_iff, WP.ofOption_iff]
  cases editor.host.editableEntity? session.scene id with
  | none => exact owing
  | some record =>
      refine WP.modifyEntity_iff.mpr ?_
      cases empty : change.isEmpty with
      | true =>
          rw [Bool.not_true, Bool.or_false]
          refine owing.change fun may _ tracks =>
            tracks.edit id (.ofRecordChange change) fun entity _ => ?_
          change Entity.Follows _ _ entity (change.apply entity)
          rw [RecordChange.apply_of_isEmpty empty]
          exact .refl _ _ _
      | false =>
          rw [Bool.not_false, Bool.or_true]
          have owed := owing.mono (Note.changedIf_subset changed id) fun _ next => next
          refine owed.change fun may told tracks =>
            tracks.edit id (.ofRecordChange change) ?_
          rintro entity rfl
          exact .of_changed (told _ (Note.mem_changedIf rfl)) rfl (List.Subset.refl _)

/-- What a plan does to an entity, its properties apart, is owed one note if it changed anything. -/
theorem restructure_owes (removes : editor.host.Grants .removeCapability) (plan : ModifyPlan)
    (removed : List CapabilityId)
    (owing : base.Owing notes [] ahead session.scene session.notes) :
    WP (editor.restructure id plan removed)
      (fun result left =>
        base.Owing notes (Note.changedIf result.1 id) ahead left.scene left.notes)
      (fun _ _ => False) session := by
  rw [restructure, WP.bind_iff, WP.outcome_iff]
  refine (attachAndMove_owes removes plan owing).mono ?_ fun _ _ owing => WP.pure_iff.mpr owing
  intro _ left owing
  rw [WP.bind_iff]
  refine (detachFrom_owes removed owing).mono ?_ fun _ _ never => never
  rintro ⟨changed, outcome⟩ left owing
  cases outcome with
  | error report => exact WP.pure_iff.mpr owing
  | ok _ =>
      refine WP.bind_iff.mpr (WP.outcome_iff.mpr ((changeRecord_owes plan.record owing).mono ?_ ?_))
      · exact fun _ _ owing => WP.pure_iff.mpr owing
      · exact fun _ _ owing => WP.pure_iff.mpr owing

/-- The notes about other entities, and those about capabilities of an entity, as they are in a
scene, that are still to be written. -/
def Unwritten (scene : Scene) (id : EntityId) (writes : Writes) (others : List EntityId)
    (note : Note) : Prop :=
  About others note ∨ ∃ write ∈ writes, ∃ capability,
    scene.Carries write.1 (id, capability) ∧ note = .wrote id capability

/-- Types of distinct names are written into distinct capabilities. -/
theorem writeProperties_owes (wf : base.WellFormed) {writes : Writes} {middle : Scene}
    {others : List EntityId} (distinct : (writes.map fun write => write.1.fullName).Nodup)
    (new : id ∉ others)
    (same : ∀ type capability, session.scene.Carries type (id, capability) →
      middle.Carries type (id, capability))
    (owing : base.Owing notes [] (Unwritten middle id writes others) session.scene session.notes) :
    WP (editor.writeProperties id writes)
      (fun _ left => base.Owing notes [] (About others) left.scene left.notes)
      (fun _ left => base.Owing notes [] (About others) left.scene left.notes) session := by
  induction writes generalizing session with
  | nil =>
      exact WP.pure_iff.mpr (owing.mono (List.Subset.refl _) fun _ next => Or.inl next)
  | cons write rest ih =>
      have settled : ∀ {scene now},
          base.Owing notes [] (Unwritten middle id rest others) scene now →
            base.Owing notes [] (About others) scene now := fun owing =>
        owing.mono (List.Subset.refl _) fun _ next => Or.inl next
      obtain ⟨first, distinct⟩ := List.nodup_cons.mp distinct
      rw [writeProperties, WP.bind_iff, capabilityOf, WP.bind_iff, WP.scene_iff, WP.ofExcept_iff]
      cases answer : editor.host.capabilityOf session.scene write.1 id with
      | error report => exact owing.mono (List.Subset.refl _) fun _ next => Or.inl next
      | ok capability =>
          have carried := same _ _ (Host.carries_of_capabilityOf owing.later.wellFormed answer)
          have fewer : ∀ other, Unwritten middle id rest others other →
              Unwritten middle id (write :: rest) others other ∧
                other ≠ .wrote id capability.id := by
            rintro other (elsewhere | ⟨write', member, capability', carried', rfl⟩)
            · refine ⟨Or.inl elsewhere, ?_⟩
              rintro rfl
              exact new elsewhere
            · refine ⟨Or.inr ⟨write', List.mem_cons_of_mem _ member, _, carried', rfl⟩, ?_⟩
              intro one
              cases one
              exact first (List.mem_map.mpr ⟨write', member, carried'.fullName_eq carried⟩)
          have next : Unwritten middle id (write :: rest) others (.wrote id capability.id) :=
            Or.inr ⟨write, List.mem_cons_self, _, carried, rfl⟩
          have owing : base.Owing notes [] (Unwritten middle id (write :: rest) others)
            (session.log []).scene (session.log []).notes := owing
          dsimp only
          rw [WP.bind_iff]
          refine ((writeEach_owes wf write.2 owing next fewer).and
            (writeEach_writes write.2)).mono ?_ fun _ _ owing => settled owing.1
          rintro report left ⟨owing, was, state, -, scene, -⟩
          rw [WP.bind_iff]
          refine (ih distinct ?_ owing).mono (fun _ _ h => WP.pure_iff.mpr h) fun _ _ h => h
          intro type capability carried
          rw [scene] at carried
          exact same type capability carried.of_setState

/-- A plan is carried out on one entity, and others come after it. -/
theorem modifyOne_owes (wf : base.WellFormed) (removes : editor.host.Grants .removeCapability)
    {plan : ModifyPlan} (distinct : (plan.writes.map fun write => write.1.fullName).Nodup)
    (removed : List CapabilityId) {others : List EntityId} (new : id ∉ others)
    (owing : base.Owing notes [] (About (id :: others)) session.scene session.notes) :
    WP (editor.modifyOne plan id removed)
      (fun _ left => base.Owing notes [] (About others) left.scene left.notes)
      (fun _ left => base.Owing notes [] (About others) left.scene left.notes) session := by
  have writes : ∀ (outcome : Except Report Unit) {session : Session},
      base.Owing notes []
        (fun note => About others note ∨ ∃ capability, note = .wrote id capability)
        session.scene session.notes →
      WP (.ofExcept outcome >>= fun _ => editor.writeProperties id plan.writes)
        (fun _ left => base.Owing notes [] (About others) left.scene left.notes)
        (fun _ left => base.Owing notes [] (About others) left.scene left.notes) session := by
    intro outcome session owing
    rw [WP.bind_iff, WP.ofExcept_iff]
    cases outcome with
    | error report => exact owing.mono (List.Subset.refl _) fun _ next => Or.inl next
    | ok _ =>
        refine writeProperties_owes wf distinct new (fun _ _ carried => carried) ?_
        refine owing.mono (List.Subset.refl _) ?_
        rintro note (elsewhere | ⟨_, _, capability, _, rfl⟩)
        · exact Or.inl elsewhere
        · exact Or.inr ⟨capability, rfl⟩
  rw [modifyOne, WP.bind_iff]
  refine (restructure_owes removes plan removed owing).mono ?_ fun _ _ never => never.elim
  rintro ⟨changed, outcome⟩ left owing
  cases changed with
  | true =>
      refine WP.bind_iff.mpr (WP.note_iff.mpr (writes outcome ?_))
      refine owing.note List.mem_cons_self ?_ ?_
      · rintro other (elsewhere | ⟨capability, rfl⟩)
        · exact @About.tail others (.changed id) new other elsewhere
        · exact ⟨List.mem_cons_self, by simp⟩
      · intro entity capability same
        cases same
  | false =>
      refine writes outcome (owing.mono (List.Subset.refl _) ?_)
      rintro other (elsewhere | ⟨capability, rfl⟩)
      · exact List.mem_cons_of_mem _ elsewhere
      · exact List.mem_cons_self

/-- A plan is carried out on distinct entities, until one fails. -/
theorem modifyEach_owes (wf : base.WellFormed) (removes : editor.host.Grants .removeCapability)
    {plan : ModifyPlan} (distinct : (plan.writes.map fun write => write.1.fullName).Nodup)
    (done : List EntityId) {entities : List (EntityId × List CapabilityId)}
    (apart : (entities.map Prod.fst).Nodup)
    (owing : base.Owing notes [] (About (entities.map Prod.fst)) session.scene session.notes) :
    WP (editor.modifyEach plan done entities)
      (fun _ left => base.Owing notes [] (About []) left.scene left.notes)
      (fun _ left => base.Owing notes [] (About []) left.scene left.notes) session := by
  induction entities generalizing session done with
  | nil => exact WP.pure_iff.mpr owing
  | cons entity rest ih =>
      obtain ⟨new, apart⟩ := List.nodup_cons.mp apart
      rw [modifyEach, WP.bind_iff, WP.reporting_iff]
      refine (modifyOne_owes wf removes distinct entity.2 new owing).mono ?_ ?_
      · intro report left owing
        rw [WP.bind_iff]
        exact (ih _ apart owing).mono (fun _ _ h => WP.pure_iff.mpr h) fun _ _ h => h
      · exact fun report left owing => owing.stop

end Editor
end SceneEdit
