import SceneEdit.Proofs.Session.Carrying
import SceneEdit.Proofs.Session.Plan
import SceneEdit.Proofs.Session.Telling

/-!
# How a modification ends

A modification goes through its targets and stops at the first that fails. Whether a capability can
be attached does not depend on the target, so attaching fails on the first target or on none, and
where it fails it is undone. After that a plan fails on a target for one of two reasons: a
capability is to be detached twice, or no capability of a type that is to be written is left
(`Feasible`). These are the outcomes of each step, put together in `Editor.modifyEach_outcome`.
-/

namespace SceneEdit.Editor

open Edit Scene

variable {editor : Editor} {base : Scene} {id : EntityId} {session : Session}
variable {done : List EntityId}

/-! ### Attaching -/

/-- A capability of a type can be attached and written: the type is not the transform, it has a
default state, and the properties can be written into it. -/
def Attachable (editor : Editor) (scene : Scene) (type : Descriptor) (properties : Entries) :
    Prop :=
  scene.isTransform type = false ∧ ∃ state,
    editor.host.env.catalog.instantiate? type.fullName = some state ∧
      (properties.isEmpty = true ∨ (editor.access.writeAll state properties).2.result = .ok ())

/-- Writing entries leaves the state that they have led to, also if one of them fails. -/
theorem writeAll_runs (edits : editor.host.Grants .editEntity) {type : Descriptor}
    {capability : CapabilityId} {state : Object} (entries : Entries)
    (holds : session.scene.Holds id capability state) :
    WP (editor.writeAll id type capability entries)
      (fun _ left => (editor.access.writeAll state entries).2.result = .ok () ∧
        left.scene = session.scene.modify id (fun entity =>
          entity.setState capability (editor.access.writeAll state entries).1) ∧
        left.notes = session.notes)
      (fun _ left => (editor.access.writeAll state entries).2.result ≠ .ok () ∧
        left.scene = session.scene.modify id (fun entity =>
          entity.setState capability (editor.access.writeAll state entries).1) ∧
        left.notes = session.notes) session := by
  obtain ⟨entity, attached, found, here, rfl⟩ := holds
  have shown : ((editor.host.editableEntity? session.scene id).bind fun record =>
      record.attached? capability).map Capability.state = some attached.state := by
    rw [edits.editableEntity?, found, Option.bind_some, here, Option.map_some]
  rw [writeAll, stateOf, WP.bind_iff, WP.bind_iff, WP.scene_iff, WP.ofOption_iff, shown]
  refine WP.bind_iff.mpr (WP.modifyEntity_iff.mpr (WP.ofAttempt_iff.mpr ?_))
  rw [Traced.result_mapError]
  cases (editor.access.writeAll attached.state entries).2.result with
  | error report => exact ⟨by simp, rfl, rfl⟩
  | ok _ => exact ⟨rfl, rfl, rfl⟩

theorem writeAll_outcome (edits : editor.host.Grants .editEntity) {type : Descriptor}
    {capability : CapabilityId} {state : Object} (properties : Entries)
    (holds : session.scene.Holds id capability state) :
    WP (editor.writeAll id type capability properties)
      (fun _ left => (editor.access.writeAll state properties).2.result = .ok () ∧
        ∃ written, left.scene =
          session.scene.modify id fun entity => entity.setState capability written)
      (fun _ _ => (editor.access.writeAll state properties).2.result ≠ .ok ()) session :=
  (writeAll_runs edits properties holds).mono (fun _ _ ended => ⟨ended.1, _, ended.2.1⟩)
    fun _ _ ended => ended.1

/-- Whether attaching succeeds does not depend on the entity. -/
theorem attach_outcome (wf : session.scene.WellFormed)
    (known : id ∈ session.scene.entities.map Entity.id)
    (adds : editor.host.Grants .addCapability) (edits : editor.host.Grants .editEntity)
    (type : Descriptor) (properties : Entries) :
    WP (editor.attach id type properties)
      (fun capability left => editor.Attachable session.scene type properties ∧
        left.scene.Carries type (id, capability) ∧
        session.scene.nextCapability ≤ capability.number)
      (fun _ _ => ¬ editor.Attachable session.scene type properties) session := by
  rw [attach, WP.bind_iff, WP.ofOption_iff]
  cases default : editor.host.env.catalog.instantiate? type.fullName with
  | none =>
      rintro ⟨-, state, given, -⟩
      rw [default] at given
      cases given
  | some state =>
      refine WP.bind_iff.mpr (WP.require_iff.mpr ?_)
      cases answer : (editor.attachRequest id type state session.scene).result with
      | error refusal =>
          rintro ⟨ordinary, -⟩
          have carried : (editor.attachRequest id type state session.scene).result = .ok (_, _) :=
            attachRequest_eq_ok_iff.mpr
              ⟨adds.refuses _ _, attach_eq_ok_iff.mpr ⟨known, ordinary, rfl, rfl⟩⟩
          rw [answer] at carried
          cases carried
      | ok made =>
          have attached := (attachRequest_eq_ok_iff.mp answer).2
          have ordinary := (attach_eq_ok_iff.mp attached).2.1
          obtain ⟨holds, carried, new⟩ := wf.holds_of_attach attached
          dsimp only
          split
          · rename_i some
            rw [WP.bind_iff, WP.orUndo_iff]
            refine (writeAll_outcome edits properties holds).mono ?_ ?_
            · rintro _ left ⟨written, other, scene⟩
              refine WP.pure_iff.mpr ⟨⟨ordinary, state, default, Or.inr written⟩, ?_, new⟩
              rw [scene]
              exact carried.setState _ _ _
            · intro report left failed
              have never : ¬ editor.Attachable session.scene type properties := by
                rintro ⟨-, state', given, empty | written⟩
                · simp [empty] at some
                · rw [default, Option.some.injEq] at given
                  exact failed (given ▸ written)
              exact (WP.true _).mono (fun _ _ _ => never) fun _ _ _ => never
          · rename_i none
            refine WP.pure_iff.mpr ⟨⟨ordinary, state, default, Or.inl ?_⟩, carried, new⟩
            simpa using none

theorem attachable_iff {ids : List EntityId} {scene : Scene} (only : base.OnlyAt ids scene)
    {type : Descriptor} {properties : Entries} :
    editor.Attachable scene type properties ↔ editor.Attachable base type properties := by
  rw [Attachable, Attachable, only.isTransform]

/-- All that a plan attaches can be attached. -/
def AllAttachable (editor : Editor) (scene : Scene) (added : List (Descriptor × Entries)) : Prop :=
  ∀ want ∈ added, editor.Attachable scene want.1 want.2

/-- An entity has got capabilities, none is lost, and there is no other new one. -/
structure Gains (id : EntityId) (added : List (Descriptor × Entries)) (before scene : Scene) :
    Prop where
  stays : ∀ {type pair}, before.Carries type pair → scene.Carries type pair
  gained : ∀ want ∈ added, ∃ capability, scene.Carries want.1 (id, capability) ∧
    before.nextCapability ≤ capability.number
  origin : ∀ {type capability}, scene.Carries type (id, capability) →
    before.Carries type (id, capability) ∨ type.fullName ∈ added.map fun want => want.1.fullName

namespace Gains

variable {before middle scene : Scene} {want : Descriptor × Entries}
variable {rest : List (Descriptor × Entries)} {capability : CapabilityId}

theorem refl (id : EntityId) (scene : Scene) : Gains id [] scene scene :=
  ⟨fun carried => carried, by simp, Or.inl⟩

theorem cons (wf : before.WellFormed) (adds : before.AddsCapabilities [(id, capability)] middle)
    (carried : middle.Carries want.1 (id, capability))
    (new : before.nextCapability ≤ capability.number) (later : before.Later middle)
    (gains : Gains id rest middle scene) : Gains id (want :: rest) before scene where
  stays old := gains.stays (old.adds wf adds)
  gained := by
    refine List.forall_mem_cons.mpr ⟨⟨capability, gains.stays carried, new⟩, ?_⟩
    intro other member
    obtain ⟨capability, carried, new⟩ := gains.gained other member
    exact ⟨capability, carried, Int.le_trans later.nextCapability_le new⟩
  origin {type other} has := by
    rcases gains.origin has with inMiddle | listed
    · by_cases same : other = capability
      · subst same
        exact Or.inr (List.mem_cons.mpr (Or.inl (inMiddle.fullName_eq carried)))
      · exact Or.inl (inMiddle.of_adds wf adds (by simpa using same))
    · exact Or.inr (List.mem_cons_of_mem _ listed)

theorem setParent (gains : Gains id rest before middle) (wf : middle.WellFormed)
    {parent : Option EntityId} (done : middle.setParent id parent = .ok scene) :
    Gains id rest before scene where
  stays old := (wf.carries_setParent_iff done).mpr (gains.stays old)
  gained want member := by
    obtain ⟨capability, carried, new⟩ := gains.gained want member
    exact ⟨capability, (wf.carries_setParent_iff done).mpr carried, new⟩
  origin carried := gains.origin ((wf.carries_setParent_iff done).mp carried)

end Gains

section

variable (granted : ∀ request, editor.host.Grants request) {ids : List EntityId}
variable (among : id ∈ ids) (known : id ∈ base.entities.map Entity.id)
include granted among known

/-- Capabilities are attached to an entity, all or none of them. -/
theorem attachAll_outcome (added : List (Descriptor × Entries))
    (attached : List (EntityId × CapabilityId)) (only : base.OnlyAt ids session.scene) :
    WP (editor.attachAll attached (added.map fun want => (id, want.1, want.2)))
      (fun _ left => editor.AllAttachable base added ∧ base.OnlyAt ids left.scene ∧
        Gains id added session.scene left.scene)
      (fun _ _ => ¬ editor.AllAttachable base added) session := by
  induction added generalizing attached session with
  | nil => exact WP.pure_iff.mpr ⟨by simp [AllAttachable], only, .refl _ _⟩
  | cons want rest ih =>
      have wf := only.wellFormed
      have outcome := attach_outcome wf (only.remain known) (granted _) (granted _) want.1 want.2
      have restores := @attach_restores editor session.scene session.notes id (granted _) want.1
        want.2 [] session (.refl wf) rfl
      have keeps := editor.attach_keeps (OnlyAt.stableAt base among) want.1 want.2 session only
      have later := editor.attach_keeps ((later_stable session.scene).at id) want.1 want.2 session
        (.refl wf)
      rw [List.map_cons, attachAll, WP.bind_iff, WP.orUndo_iff]
      refine ((outcome.and restores).and (keeps.and later)).mono ?_ ?_
      · rintro capability left ⟨⟨⟨attachable, carried, new⟩, adds, -⟩, only', later⟩
        refine (ih _ only').mono ?_ ?_
        · rintro result after ⟨others, only'', gains⟩
          refine ⟨?_, only'', .cons wf adds carried new later gains⟩
          exact List.forall_mem_cons.mpr ⟨(attachable_iff only).mp attachable, others⟩
        · exact fun report after never all => never (List.forall_mem_cons.mp all).2
      · rintro report left ⟨⟨never, -⟩, -⟩
        have missing : ¬ editor.AllAttachable base (want :: rest) := fun all =>
          never ((attachable_iff only).mpr (List.forall_mem_cons.mp all).1)
        exact (WP.true _).mono (fun _ _ _ => missing) fun _ _ _ => missing

/-- Capabilities are attached and the entity is moved, or neither. -/
theorem attachAndMove_outcome {plan : ModifyPlan} (only : base.OnlyAt ids session.scene)
    (fit : ∀ parent, plan.parent = some (some parent) →
      parent ∈ base.entities.map Entity.id ∧ ∀ other ∈ ids, ¬ base.Below parent other) :
    WP (editor.attachAndMove id plan)
      (fun _ left => editor.AllAttachable base plan.added ∧ base.OnlyAt ids left.scene ∧
        Gains id plan.added session.scene left.scene)
      (fun _ left => ¬ editor.AllAttachable base plan.added ∧
        session.scene.Agrees left.scene ∧ left.notes = session.notes) session := by
  have outcome := attachAll_outcome granted among known plan.added [] only
  have restores := attachAll_restores (granted _)
    (plan.added.map fun want => (id, want.1, want.2)) (.refl only.wellFormed) rfl
  rw [attachAndMove, WP.bind_iff]
  refine (outcome.and restores).mono ?_ ?_
  · rintro attached left ⟨⟨all, only, gains⟩, -⟩
    split
    · rename_i parent moves
      obtain ⟨changed, done⟩ := only.exists_setParent among known fun above under =>
        fit above (moves.trans (congrArg some under))
      have carried : (editor.parentRequest id parent left.scene).result = .ok ((), changed) :=
        parentRequest_eq_ok_iff.mpr ⟨(granted _).refuses _ _, done⟩
      rw [WP.orUndo_iff, WP.require_iff, carried]
      exact ⟨all, only.setParent among done, gains.setParent only.wellFormed done⟩
    · exact WP.pure_iff.mpr ⟨all, only, gains⟩
  · exact fun report left holds => holds

end

/-! ### Detaching -/

/-- An entity has a capability that can be detached. -/
def Detachable (scene : Scene) (id : EntityId) (capability : CapabilityId) : Prop :=
  ∃ type, scene.isTransform type = false ∧ scene.Carries type (id, capability)

/-- A capability that an entity does not have is not detached from it. -/
theorem detachFrom_fails (changed : Bool) {removed : List CapabilityId}
    (wf : session.scene.WellFormed) {capability : CapabilityId} (listed : capability ∈ removed)
    (gone : ∀ type, ¬ session.scene.Carries type (id, capability)) :
    WP (editor.detachFrom id changed removed) (fun result _ => result.2.isOk = false)
      (fun _ _ => False) session := by
  induction removed generalizing changed session with
  | nil => cases listed
  | cons first rest ih =>
      rw [detachFrom, WP.bind_iff, WP.outcome_iff, WP.require_iff]
      cases answer : (editor.detachRequest id first session.scene).result with
      | error refusal => exact WP.pure_iff.mpr rfl
      | ok done =>
          have detached := (detachRequest_eq_ok_iff.mp answer).2
          refine ih true (wf.detach detached) ?_ fun type carried =>
            gone type ((wf.carries_detach_iff detached).mp carried).1
          refine (List.mem_cons.mp listed).resolve_left ?_
          rintro rfl
          obtain ⟨entity, attached, found, here, -⟩ := detach_eq_ok_iff.mp detached
          exact gone attached.type ⟨entity, attached, found, here, rfl⟩

section

variable (granted : ∀ request, editor.host.Grants request) {ids : List EntityId}
variable (among : id ∈ ids)
include granted among

/-- Capabilities are detached if none is listed twice, and the others stay. -/
theorem detachFrom_outcome (changed : Bool) {removed : List CapabilityId}
    (only : base.OnlyAt ids session.scene)
    (detachable : ∀ capability ∈ removed, Detachable session.scene id capability) :
    WP (editor.detachFrom id changed removed)
      (fun result left => match result.2 with
        | .ok () => removed.Nodup ∧ base.OnlyAt ids left.scene ∧
          ∀ type capability, left.scene.Carries type (id, capability) ↔
            session.scene.Carries type (id, capability) ∧ capability ∉ removed
        | .error _ => ¬ removed.Nodup)
      (fun _ _ => False) session := by
  induction removed generalizing changed session with
  | nil => exact WP.pure_iff.mpr ⟨List.nodup_nil, only, by simp⟩
  | cons first rest ih =>
      have wf := only.wellFormed
      obtain ⟨⟨type, ordinary, carried⟩, others⟩ := List.forall_mem_cons.mp detachable
      have done := carried.detach_eq_ok ordinary
      have accepted : (editor.detachRequest id first session.scene).result = .ok ((), _) :=
        detachRequest_eq_ok_iff.mpr ⟨(granted _).refuses _ _, done⟩
      rw [detachFrom, WP.bind_iff, WP.outcome_iff, WP.require_iff, accepted]
      by_cases twice : first ∈ rest
      · refine (detachFrom_fails true (wf.detach done) twice fun type still => ?_).mono ?_
          fun _ _ never => never
        · exact ((wf.carries_detach_iff done).mp still).2 rfl
        · rintro ⟨changed, _ | _⟩ left failed
          · exact fun distinct => (List.nodup_cons.mp distinct).1 twice
          · cases failed
      · refine (ih true (only.detach among done) fun capability member => ?_).mono ?_
          fun _ _ never => never
        · obtain ⟨type, ordinary, carried⟩ := others capability member
          refine ⟨type, ordinary, (wf.carries_detach_iff done).mpr ⟨carried, ?_⟩⟩
          exact fun same : capability = first => twice (same ▸ member)
        · rintro ⟨changed, _ | _⟩ left holds
          · exact fun distinct => holds (List.nodup_cons.mp distinct).2
          · obtain ⟨distinct, only', stays⟩ := holds
            refine ⟨List.nodup_cons.mpr ⟨twice, distinct⟩, only', fun type capability => ?_⟩
            rw [stays, wf.carries_detach_iff done, List.mem_cons, not_or, and_assoc]

/-! ### Changing and writing -/

theorem changeRecord_outcome (change : RecordChange) (only : base.OnlyAt ids session.scene)
    (known : id ∈ base.entities.map Entity.id) :
    WP (editor.changeRecord id change)
      (fun _ left => base.OnlyAt ids left.scene ∧
        ∀ type pair, left.scene.Carries type pair ↔ session.scene.Carries type pair)
      (fun _ _ => False) session := by
  obtain ⟨entity, found⟩ := Option.isSome_iff_exists.mp
    (entity?_isSome_iff.mpr (only.remain known))
  rw [changeRecord, WP.bind_iff, WP.scene_iff, WP.bind_iff, WP.ofOption_iff,
    (granted .editEntity).editableEntity?, found]
  refine WP.modifyEntity_iff.mpr ⟨only.edit among (.ofRecordChange change), fun type pair => ?_⟩
  exact only.wellFormed.carries_edit_iff id (.ofRecordChange change)

/-- Types are written if the entity has a capability of each of them. -/
theorem writeProperties_outcome {writes : Writes} (only : base.OnlyAt ids session.scene) :
    WP (editor.writeProperties id writes)
      (fun _ left => base.OnlyAt ids left.scene ∧
        ∀ write ∈ writes, ∃ capability, session.scene.Carries write.1 (id, capability))
      (fun _ _ => ¬ ∀ write ∈ writes, ∃ capability,
        session.scene.Carries write.1 (id, capability)) session := by
  induction writes generalizing session with
  | nil => exact WP.pure_iff.mpr ⟨only, by simp⟩
  | cons write rest ih =>
      rw [writeProperties, WP.bind_iff, capabilityOf, WP.bind_iff, WP.scene_iff, WP.ofExcept_iff]
      cases found : editor.host.capabilityOf session.scene write.1 id with
      | error report =>
          intro all
          obtain ⟨capability, carried⟩ := (List.forall_mem_cons.mp all).1
          obtain ⟨first, has⟩ := Host.capabilityOf_eq_ok (granted .viewEntity) carried
          rw [found] at has
          cases has
      | ok first =>
          have carried := Host.carries_of_capabilityOf only.wellFormed found
          dsimp only
          rw [WP.bind_iff]
          have succeeds := writeEach_succeeds (granted .editEntity) write.2
            (List.mem_singleton_self (id, first.id)) (session.log [])
            (List.forall_mem_singleton.mpr carried)
          refine (succeeds.and (writeEach_writes write.2)).mono ?_ fun _ _ never => never.1.elim
          rintro report left ⟨-, was, state, -, scene, -⟩
          have same : ∀ type capability, left.scene.Carries type (id, capability) ↔
              session.scene.Carries type (id, capability) := by
            rw [scene]
            exact fun _ _ => ⟨fun carried => carried.of_setState, fun carried =>
              carried.setState _ _ _⟩
          have only' : base.OnlyAt ids left.scene := by
            rw [scene]
            exact only.edit among (.setState first.id state)
          rw [WP.bind_iff]
          refine (ih only').mono ?_ ?_
          · rintro _ after ⟨only, others⟩
            refine WP.pure_iff.mpr ⟨only, List.forall_mem_cons.mpr ⟨⟨_, carried⟩, ?_⟩⟩
            simpa only [same] using others
          · intro report after missing all
            refine missing ?_
            simpa only [same] using (List.forall_mem_cons.mp all).2

end

/-! ### One entity after the other -/

/-- A plan can be carried out on an entity, given the capabilities to detach: none is listed twice,
and of every type to write one stays or is attached. -/
structure Feasible (scene : Scene) (plan : ModifyPlan) (id : EntityId)
    (removed : List CapabilityId) : Prop where
  distinct : removed.Nodup
  spare : ∀ write ∈ plan.writes,
    write.1.fullName ∈ plan.added.map (fun want => want.1.fullName) ∨
      ∃ capability, scene.Carries write.1 (id, capability) ∧ capability ∉ removed

section

variable (granted : ∀ request, editor.host.Grants request) {plan : ModifyPlan}
variable {removed : List CapabilityId} (known : id ∈ base.entities.map Entity.id)
variable (detachable : ∀ capability ∈ removed, Detachable base id capability)
variable (new : id ∉ done)
variable (fit : ∀ parent, plan.parent = some (some parent) →
  parent ∈ base.entities.map Entity.id ∧ ∀ other ∈ id :: done, ¬ base.Below parent other)
include granted known detachable new fit

/-- What a plan does to an entity, its properties apart, and the types that the entity then has. -/
theorem restructure_outcome (only : base.OnlyAt done session.scene) :
    WP (editor.restructure id plan removed)
      (fun result left => match result.2 with
        | .ok () => editor.AllAttachable base plan.added ∧ removed.Nodup ∧
          base.OnlyAt (id :: done) left.scene ∧
          ∀ type, (∃ capability, left.scene.Carries type (id, capability)) ↔
            type.fullName ∈ plan.added.map (fun want => want.1.fullName) ∨
              ∃ capability, base.Carries type (id, capability) ∧ capability ∉ removed
        | .error _ => (¬ editor.AllAttachable base plan.added ∧ result.1 = false ∧
            session.scene.Agrees left.scene ∧ left.notes = session.notes) ∨
          editor.AllAttachable base plan.added ∧ ¬ removed.Nodup)
      (fun _ _ => False) session := by
  have among : id ∈ id :: done := List.mem_cons_self
  have here : ∀ {type capability}, session.scene.Carries type (id, capability) ↔
      base.Carries type (id, capability) := fun {_ _} =>
    ⟨fun carried => carried.of_entity? (only.others id new).symm,
      fun carried => carried.of_entity? (only.others id new)⟩
  rw [restructure, WP.bind_iff, WP.outcome_iff]
  refine (attachAndMove_outcome granted among known (only.mono (List.subset_cons_self _ _))
    fit).mono ?_ ?_
  · rintro _ left ⟨all, onlyMoved, gains⟩
    have detachable' : ∀ capability ∈ removed, Detachable left.scene id capability := by
      intro capability member
      obtain ⟨type, ordinary, carried⟩ := detachable capability member
      exact ⟨type, (onlyMoved.isTransform type).trans ordinary, gains.stays (here.mpr carried)⟩
    rw [WP.bind_iff]
    refine (detachFrom_outcome granted among _ onlyMoved detachable').mono ?_ fun _ _ never => never
    rintro ⟨changed, _ | _⟩ detached holds
    · exact WP.pure_iff.mpr (Or.inr ⟨all, holds⟩)
    · obtain ⟨distinct, onlyDetached, stays⟩ := holds
      refine WP.bind_iff.mpr (WP.outcome_iff.mpr ((changeRecord_outcome granted among plan.record
        onlyDetached known).mono ?_ fun _ _ never => never.elim))
      rintro _ after ⟨onlyChanged, same⟩
      refine WP.pure_iff.mpr ⟨all, distinct, onlyChanged, fun type => ?_⟩
      simp only [same, stays]
      constructor
      · rintro ⟨capability, carried, left⟩
        refine (gains.origin carried).symm.imp_right fun old => ⟨capability, here.mp old, left⟩
      · rintro (added | ⟨capability, carried, left⟩)
        · -- What was attached is new, so it is not what was detached.
          obtain ⟨want, isAdded, same⟩ := List.mem_map.mp added
          obtain ⟨capability, carried, fresh⟩ := gains.gained want isAdded
          refine ⟨capability, carried.congr same, fun detached => ?_⟩
          obtain ⟨type, -, carried⟩ := detachable capability detached
          exact Int.not_lt.mpr fresh ((here.mpr carried).lt only.wellFormed)
        · exact ⟨capability, gains.stays (here.mpr carried), left⟩
  · rintro report left ⟨never, untouched⟩
    exact WP.pure_iff.mpr (Or.inl ⟨never, rfl, untouched⟩)

theorem modifyOne_outcome (only : base.OnlyAt done session.scene) :
    WP (editor.modifyOne plan id removed)
      (fun _ left => editor.AllAttachable base plan.added ∧ Feasible base plan id removed ∧
        base.OnlyAt (id :: done) left.scene)
      (fun _ left => (¬ editor.AllAttachable base plan.added ∧
          session.scene.Agrees left.scene ∧ left.notes = session.notes) ∨
        editor.AllAttachable base plan.added ∧ ¬ Feasible base plan id removed) session := by
  have among : id ∈ id :: done := List.mem_cons_self
  rw [modifyOne, WP.bind_iff]
  refine (restructure_outcome granted known detachable new fit only).mono ?_
    fun _ _ never => never.elim
  rintro ⟨changed, _ | _⟩ left holds
  · rcases holds with ⟨never, unchanged, untouched⟩ | ⟨all, twice⟩
    · obtain rfl : changed = false := unchanged
      exact WP.bind_iff.mpr (WP.ofExcept_iff.mpr (Or.inl ⟨never, untouched⟩))
    · have infeasible : ¬ Feasible base plan id removed := fun feasible => twice feasible.distinct
      cases changed with
      | true =>
          refine WP.bind_iff.mpr (WP.note_iff.mpr (WP.bind_iff.mpr (WP.ofExcept_iff.mpr ?_)))
          exact Or.inr ⟨all, infeasible⟩
      | false => exact WP.bind_iff.mpr (WP.ofExcept_iff.mpr (Or.inr ⟨all, infeasible⟩))
  · obtain ⟨all, distinct, onlyHere, has⟩ := holds
    have writes : ∀ session : Session, session.scene = left.scene →
        WP (.ofExcept (.ok ()) >>= fun _ => editor.writeProperties id plan.writes)
          (fun _ after => editor.AllAttachable base plan.added ∧ Feasible base plan id removed ∧
            base.OnlyAt (id :: done) after.scene)
          (fun _ _ => editor.AllAttachable base plan.added ∧ ¬ Feasible base plan id removed)
          session := by
      intro session same
      refine WP.bind_iff.mpr (WP.ofExcept_iff.mpr ?_)
      refine (writeProperties_outcome granted among (same ▸ onlyHere)).mono ?_ ?_
      · rintro _ after ⟨only, carried⟩
        simp only [Session.log, same, has] at carried
        exact ⟨all, ⟨distinct, carried⟩, only⟩
      · intro _ after missing
        simp only [Session.log, same, has] at missing
        exact ⟨all, fun feasible => missing feasible.spare⟩
    cases changed with
    | true =>
        refine WP.bind_iff.mpr (WP.note_iff.mpr ?_)
        exact WP.mono (writes _ (by rfl)) (fun _ _ h => h) fun _ _ h => Or.inr h
    | false => exact WP.mono (writes _ rfl) (fun _ _ h => h) fun _ _ h => Or.inr h

end

/-- Either a plan is carried out on all entities, or something cannot be attached and nothing has
changed, or the plan is not feasible on one of them. -/
theorem modifyEach_outcome (granted : ∀ request, editor.host.Grants request) {plan : ModifyPlan}
    {targets : List EntityId}
    (fit : ∀ parent, plan.parent = some (some parent) →
      parent ∈ base.entities.map Entity.id ∧ ∀ target ∈ targets, ¬ base.Below parent target)
    (entities : List (EntityId × List CapabilityId))
    (known : entities.map Prod.fst ⊆ base.entities.map Entity.id)
    (detachable : ∀ entry ∈ entities, ∀ capability ∈ entry.2, Detachable base entry.1 capability)
    (finished : List EntityId) (distinct : (entities.map Prod.fst).Nodup)
    (apart : ∀ entry ∈ entities, entry.1 ∉ done)
    (among : entities.map Prod.fst ⊆ targets) (before : done ⊆ targets)
    (only : base.OnlyAt done session.scene) :
    WP (editor.modifyEach plan finished entities)
      (fun _ left => base.entities.map Entity.id ⊆ left.scene.entities.map Entity.id ∧
        ∀ entry ∈ entities, Feasible base plan entry.1 entry.2)
      (fun _ left => (¬ editor.AllAttachable base plan.added ∧
          session.scene.Agrees left.scene ∧ left.notes = session.notes) ∨
        editor.AllAttachable base plan.added ∧
          ¬ ∀ entry ∈ entities, Feasible base plan entry.1 entry.2) session := by
  induction entities generalizing session done finished with
  | nil => exact WP.pure_iff.mpr ⟨only.remain, by simp⟩
  | cons entry rest ih =>
      obtain ⟨new, distinct⟩ := List.nodup_cons.mp distinct
      obtain ⟨isKnown, known⟩ := List.cons_subset.mp known
      obtain ⟨here, detachable⟩ := List.forall_mem_cons.mp detachable
      obtain ⟨outside, apart⟩ := List.forall_mem_cons.mp apart
      obtain ⟨isTarget, among⟩ := List.cons_subset.mp among
      have targeted : entry.1 :: done ⊆ targets := List.cons_subset.mpr ⟨isTarget, before⟩
      have outcome := modifyOne_outcome granted isKnown here outside (fun parent moves =>
        ⟨(fit parent moves).1, fun other member => (fit parent moves).2 other (targeted member)⟩)
        only
      rw [modifyEach, WP.bind_iff, WP.reporting_iff]
      refine outcome.mono ?_ ?_
      · rintro report left ⟨all, feasible, onlyHere⟩
        have apart' : ∀ other ∈ rest, other.1 ∉ entry.1 :: done := by
          intro other member
          refine List.not_mem_cons_of_ne_of_not_mem (fun same => new ?_) (apart other member)
          exact same ▸ List.mem_map_of_mem member
        rw [WP.bind_iff]
        refine (ih known detachable _ distinct apart' among targeted onlyHere).mono ?_ ?_
        · rintro _ after ⟨remain, others⟩
          exact WP.pure_iff.mpr ⟨remain, List.forall_mem_cons.mpr ⟨feasible, others⟩⟩
        · rintro report after (⟨never, -⟩ | ⟨-, infeasible⟩)
          · exact absurd all never
          · exact Or.inr ⟨all, fun others => infeasible (List.forall_mem_cons.mp others).2⟩
      · rintro report left (untouched | ⟨all, infeasible⟩)
        · exact Or.inl untouched
        · exact Or.inr ⟨all, fun others => infeasible (List.forall_mem_cons.mp others).1⟩

end SceneEdit.Editor
