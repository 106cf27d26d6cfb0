import SceneEdit.Proofs.Session.Modify

/-!
# Which modifications leave a trace when they fail

A modification checks what it names against the scene as it is, not against the scene that its own
steps lead to. So its parts may get in each other's way: a type that is detached twice is gone the
second time, and a type that is detached may be missing when it is to be written. Where they do not
(`Prepared.Compatible`), a modification that fails leaves no trace. Where they do, it has detached a
capability when it fails, unless something could not be attached. So this decides whether a
modification is all or nothing (`Editor.modify_all_or_nothing_iff`), and not every one is
(`Editor.modify_not_all_or_nothing`).
-/

namespace SceneEdit

/-! ### Capabilities that are gone -/

namespace Scene

/-- A capability that was there once and is no more. -/
structure Lost (capability : CapabilityId) (scene : Scene) : Prop where
  wellFormed : scene.WellFormed
  given : capability.number < scene.nextCapability
  gone : capability ∉ scene.capabilityIds

variable {scene changed : Scene} {id : EntityId} {capability : CapabilityId}

theorem Lost.later (lost : Lost capability scene) (later : scene.Later changed) :
    Lost capability changed where
  wellFormed := later.wellFormed
  given := Int.lt_of_lt_of_le lost.given later.nextCapability_le
  gone present := by
    obtain ⟨entity, member, attached, has, rfl⟩ := mem_capabilityIds.mp present
    obtain ⟨old, inside, -, was, had, same⟩ := later.owned entity member attached has lost.given
    exact lost.gone (mem_capabilityIds.mpr ⟨old, inside, was, had, same⟩)

theorem lost_stable (capability : CapabilityId) : Stable (Lost capability) where
  create lost done := lost.later (lost.wellFormed.later_create done)
  destroy lost done := lost.later (lost.wellFormed.later_destroy done)
  duplicate lost done := lost.later (lost.wellFormed.later_duplicate done)
  setParent lost done := lost.later (lost.wellFormed.later_setParent done)
  attach lost done := lost.later (lost.wellFormed.later_attach done)
  detach lost done := lost.later (lost.wellFormed.later_detach done)
  edit id edit lost := lost.later (lost.wellFormed.later_edit id edit)

theorem Carries.lost {type : Descriptor} (carried : scene.Carries type (id, capability))
    (wf : scene.WellFormed) (done : scene.detach id capability = .ok changed) :
    Lost capability changed := by
  refine ⟨wf.detach done, Int.lt_of_lt_of_le (carried.lt wf)
    (wf.later_detach done).nextCapability_le, fun present => ?_⟩
  obtain ⟨entity, member, attached, has, same⟩ := mem_capabilityIds.mp present
  have still : changed.Carries attached.type (entity.id, capability) :=
    (wf.detach done).carries_iff.mpr ⟨entity, member, rfl, attached, has, same, rfl⟩
  exact ((wf.carries_detach_iff done).mp still).2 rfl

/-- A scene that lost a capability is not the one that has it. -/
theorem Lost.not_agrees {base : Scene} {type : Descriptor} (lost : Lost capability scene)
    (carried : base.Carries type (id, capability)) : ¬ base.Agrees scene := by
  intro agrees
  obtain ⟨entity, attached, found, here, -⟩ := carried
  obtain ⟨has, same⟩ := Entity.mem_of_attached? here
  refine lost.gone (mem_capabilityIds.mpr ⟨entity, ?_, attached, has, same⟩)
  rw [agrees.entities]
  exact (mem_of_entity? found).1

end Scene

/-! ### What is looked up for full names -/

namespace Host

variable {host : Host} {scene : Scene} {type other : Descriptor}

theorem capabilityOf_congr (same : type.fullName = other.fullName) {id : EntityId}
    {capability : Capability} (found : host.capabilityOf scene type id = .ok capability) :
    host.capabilityOf scene other id = .ok capability := by
  obtain ⟨entity, shown, has⟩ := bind_eq_ok_iff.mp found
  refine bind_eq_ok_iff.mpr ⟨entity, shown, ?_⟩
  rw [← same]
  split at has
  · exact has
  · cases has

theorem capabilitiesOf_congr (same : type.fullName = other.fullName) {ids : List EntityId}
    {pairs : List (EntityId × CapabilityId)}
    (found : host.capabilitiesOf scene type ids = .ok pairs) :
    host.capabilitiesOf scene other ids = .ok pairs := by
  induction ids generalizing pairs with
  | nil => exact found
  | cons id rest ih =>
      unfold capabilitiesOf at found ih ⊢
      rw [List.mapM_cons] at found ⊢
      obtain ⟨pair, first, found⟩ := bind_eq_ok_iff.mp found
      obtain ⟨capability, has, done⟩ := bind_eq_ok_iff.mp first
      obtain ⟨others, later, finished⟩ := bind_eq_ok_iff.mp found
      exact bind_eq_ok_iff.mpr ⟨pair, bind_eq_ok_iff.mpr ⟨capability, capabilityOf_congr same has,
        done⟩, bind_eq_ok_iff.mpr ⟨others, ih later, finished⟩⟩

end Host

namespace Editor

open Edit Scene

variable {editor : Editor} {base : Scene} {id : EntityId} {session : Session}
variable {prepared : Prepared}

/-! ### Compatible requests -/

/-- The parts of a modification do not get in each other's way: no type is detached twice, and a
type that is detached and written is also attached, or every target has two capabilities of it. -/
structure Prepared.Compatible (prepared : Prepared) (scene : Scene) : Prop where
  distinct : (prepared.removed.map Descriptor.fullName).Nodup
  spare : ∀ write ∈ prepared.plan.writes,
    write.1.fullName ∈ prepared.removed.map Descriptor.fullName →
      write.1.fullName ∈ prepared.plan.added.map (fun want => want.1.fullName) ∨
        ∀ target ∈ prepared.targets, ∃ first second, first ≠ second ∧
          scene.Carries write.1 (target, first) ∧ scene.Carries write.1 (target, second)

/-- The capabilities to detach from a target. -/
def Prepared.removedAt (prepared : Prepared) (id : EntityId) : List CapabilityId :=
  prepared.byType.filterMap fun found => found.lookup id

/-- The capabilities to detach from a target with their types, of which one full name means one
capability. -/
structure Removes (scene : Scene) (id : EntityId) (pairs : List (Descriptor × CapabilityId)) :
    Prop where
  carried : ∀ pair ∈ pairs, scene.Carries pair.1 (id, pair.2)
  one : ∀ first ∈ pairs, ∀ second ∈ pairs, first.1.fullName = second.1.fullName →
    first.2 = second.2

/-- Each capability to detach from a target comes from what was looked up for its type. -/
theorem exists_looked_up {host : Host} {targets : List EntityId} {removed : List Descriptor}
    {byType : List (List (EntityId × CapabilityId))} (wf : base.WellFormed)
    (found : List.Forall₂ (fun type pairs => host.capabilitiesOf base type targets = .ok pairs)
      removed byType) (member : id ∈ targets) :
    ∃ pairs : List (Descriptor × CapabilityId), pairs.map Prod.fst = removed ∧
      pairs.map Prod.snd = byType.filterMap (fun found => found.lookup id) ∧
      ∀ pair ∈ pairs, ∃ found, host.capabilitiesOf base pair.1 targets = .ok found ∧
        found.lookup id = some pair.2 := by
  induction found with
  | nil => exact ⟨[], rfl, rfl, by simp⟩
  | @cons type found _ _ here _ ih =>
      obtain ⟨pairs, types, capabilities, lookups⟩ := ih
      have isTarget : id ∈ found.map Prod.fst :=
        (Host.capabilitiesOf_eq_ok wf here).1.symm ▸ member
      cases looked : found.lookup id with
      | none =>
          obtain ⟨pair, inside, rfl⟩ := List.mem_map.mp isTarget
          exact absurd (List.lookup_eq_none_iff.mp looked pair inside) (by simp)
      | some capability =>
          refine ⟨(type, capability) :: pairs, by rw [List.map_cons, types], ?_,
            List.forall_mem_cons.mpr ⟨⟨found, here, looked⟩, lookups⟩⟩
          rw [List.map_cons, capabilities, List.filterMap_cons_some looked]

theorem exists_removes (wf : base.WellFormed) (fits : prepared.Fits editor.host base)
    (member : id ∈ prepared.targets) :
    ∃ pairs, Removes base id pairs ∧ pairs.map Prod.fst = prepared.removed ∧
      pairs.map Prod.snd = prepared.removedAt id := by
  obtain ⟨pairs, types, capabilities, lookups⟩ := exists_looked_up wf fits.detachable member
  refine ⟨pairs, ⟨fun pair inside => ?_, fun first isFirst second isSecond same => ?_⟩, types,
    capabilities⟩
  · obtain ⟨found, here, looked⟩ := lookups pair inside
    obtain ⟨before, after, rfl, -⟩ := List.lookup_eq_some_iff.mp looked
    exact (Host.capabilitiesOf_eq_ok wf here).2 (id, pair.2) (by simp)
  · obtain ⟨found, here, looked⟩ := lookups first isFirst
    obtain ⟨found', here', looked'⟩ := lookups second isSecond
    rw [Host.capabilitiesOf_congr same here, Except.ok.injEq] at here'
    rw [here', looked', Option.some.injEq] at looked
    exact looked.symm

theorem Removes.detachable {pairs : List (Descriptor × CapabilityId)}
    (removes : Removes base id pairs)
    (ordinary : ∀ type ∈ pairs.map Prod.fst, base.isTransform type = false) :
    ∀ capability ∈ pairs.map Prod.snd, Detachable base id capability := by
  intro capability listed
  obtain ⟨pair, inside, rfl⟩ := List.mem_map.mp listed
  exact ⟨pair.1, ordinary _ (List.mem_map_of_mem inside), removes.carried pair inside⟩

/-- A full name is listed twice if and only if a capability is. -/
theorem Removes.nodup_iff {pairs : List (Descriptor × CapabilityId)}
    (removes : Removes base id pairs) :
    (pairs.map Prod.snd).Nodup ↔ ((pairs.map Prod.fst).map Descriptor.fullName).Nodup := by
  rw [List.map_map, List.Nodup, List.Nodup, List.pairwise_map, List.pairwise_map]
  refine ⟨fun apart => apart.imp_of_mem ?_, fun apart => apart.imp_of_mem ?_⟩
  · intro first second isFirst isSecond different same
    exact different (removes.one first isFirst second isSecond same)
  · intro first second isFirst isSecond different same
    have carried := removes.carried first isFirst
    rw [same] at carried
    exact different (carried.fullName_eq (removes.carried second isSecond))

/-- A plan is feasible on a target if no type is detached twice and, of a type that is detached and
written, one is attached or the target has two. -/
theorem Removes.feasible_iff {pairs : List (Descriptor × CapabilityId)} {plan : ModifyPlan}
    (removes : Removes base id pairs)
    (there : ∀ write ∈ plan.writes, write.1 ∈ plan.added.map Prod.fst ∨
      ∃ capability, base.Carries write.1 (id, capability)) :
    Feasible base plan id (pairs.map Prod.snd) ↔
      ((pairs.map Prod.fst).map Descriptor.fullName).Nodup ∧ ∀ write ∈ plan.writes,
        write.1.fullName ∈ (pairs.map Prod.fst).map Descriptor.fullName →
          write.1.fullName ∈ plan.added.map (fun want => want.1.fullName) ∨
            ∃ first second, first ≠ second ∧
              base.Carries write.1 (id, first) ∧ base.Carries write.1 (id, second) := by
  have named : ∀ {type capability}, base.Carries type (id, capability) →
      capability ∈ pairs.map Prod.snd →
      ∃ pair ∈ pairs, pair.2 = capability ∧ pair.1.fullName = type.fullName := by
    intro type capability has detached
    obtain ⟨pair, inside, rfl⟩ := List.mem_map.mp detached
    exact ⟨pair, inside, rfl, (removes.carried pair inside).fullName_eq has⟩
  constructor
  · rintro ⟨distinct, spare⟩
    refine ⟨removes.nodup_iff.mp distinct, fun write isWrite removed => ?_⟩
    refine (spare write isWrite).imp_right fun ⟨second, has, stays⟩ => ?_
    rw [List.map_map] at removed
    obtain ⟨pair, inside, same⟩ := List.mem_map.mp removed
    refine ⟨pair.2, second, ?_, (removes.carried pair inside).congr same, has⟩
    rintro rfl
    exact stays (List.mem_map_of_mem inside)
  · rintro ⟨distinct, spare⟩
    refine ⟨removes.nodup_iff.mpr distinct, fun write isWrite => ?_⟩
    by_cases removed : write.1.fullName ∈ (pairs.map Prod.fst).map Descriptor.fullName
    · refine (spare write isWrite removed).imp_right ?_
      rintro ⟨first, second, different, hasFirst, hasSecond⟩
      by_cases detached : first ∈ pairs.map Prod.snd
      · refine ⟨second, hasSecond, fun detached' => different ?_⟩
        obtain ⟨pair, inside, rfl, same⟩ := named hasFirst detached
        obtain ⟨pair', inside', rfl, same'⟩ := named hasSecond detached'
        exact removes.one pair inside pair' inside' (same.trans same'.symm)
      · exact ⟨first, hasFirst, detached⟩
    · refine (there write isWrite).imp ?_ ?_
      · intro added
        obtain ⟨want, isAdded, same⟩ := List.mem_map.mp added
        exact List.mem_map.mpr ⟨want, isAdded, congrArg Descriptor.fullName same⟩
      · rintro ⟨capability, has⟩
        refine ⟨capability, has, fun detached => removed ?_⟩
        obtain ⟨pair, inside, -, same⟩ := named has detached
        rw [List.map_map]
        exact List.mem_map.mpr ⟨pair, inside, same⟩

/-- A modification is compatible if it is feasible on all its targets. -/
theorem compatible_iff (wf : base.WellFormed) (fits : prepared.Fits editor.host base) :
    prepared.Compatible base ↔ ∀ target ∈ prepared.targets,
      Feasible base prepared.plan target (prepared.removedAt target) := by
  have each : ∀ target ∈ prepared.targets,
      (Feasible base prepared.plan target (prepared.removedAt target) ↔
        (prepared.removed.map Descriptor.fullName).Nodup ∧ ∀ write ∈ prepared.plan.writes,
          write.1.fullName ∈ prepared.removed.map Descriptor.fullName →
            write.1.fullName ∈ prepared.plan.added.map (fun want => want.1.fullName) ∨
              ∃ first second, first ≠ second ∧ base.Carries write.1 (target, first) ∧
                base.Carries write.1 (target, second)) := by
    intro target member
    obtain ⟨pairs, removes, types, capabilities⟩ := exists_removes wf fits member
    rw [← types, ← capabilities]
    exact removes.feasible_iff fun write isWrite =>
      (fits.writable write isWrite).imp_right fun there => there target member
  constructor
  · rintro ⟨distinct, spare⟩ target member
    refine (each target member).mpr ⟨distinct, fun write isWrite removed => ?_⟩
    exact (spare write isWrite removed).imp_right fun twice => twice target member
  · intro feasible
    obtain ⟨first, isFirst⟩ := List.exists_mem_of_ne_nil _ fits.nonempty
    refine ⟨((each first isFirst).mp (feasible first isFirst)).1, fun write isWrite removed => ?_⟩
    refine or_iff_not_imp_left.mpr fun notAdded target member => ?_
    exact (((each target member).mp (feasible target member)).2 write isWrite removed).resolve_left
      notAdded

/-! ### How a modification ends -/

theorem detachable_of_fits (wf : base.WellFormed) (fits : prepared.Fits editor.host base)
    (ordinary : ∀ type ∈ prepared.removed, base.isTransform type = false) :
    ∀ target ∈ prepared.targets, ∀ capability ∈ prepared.removedAt target,
      Detachable base target capability := by
  intro target member
  obtain ⟨pairs, removes, types, capabilities⟩ := exists_removes wf fits member
  rw [← capabilities]
  exact removes.detachable (types.symm ▸ ordinary)

section

variable (granted : ∀ request, editor.host.Grants request) (wf : base.WellFormed)
variable (fits : prepared.Fits editor.host base)
variable (ordinary : ∀ type ∈ prepared.removed, base.isTransform type = false)
variable (same : session.scene = base)
include granted wf fits ordinary same

/-- Only a compatible modification succeeds. Another one may fail with a trace if all that it
attaches can be attached. -/
theorem finish_outcome :
    WP (editor.finish prepared) (fun _ _ => prepared.Compatible base)
      (fun _ left => (base.Agrees left.scene ∧ left.notes = session.notes) ∨
        editor.AllAttachable base prepared.plan.added ∧ ¬ prepared.Compatible base) session := by
  subst same
  have names := map_fst_removals prepared.targets prepared.byType
  have detachable : ∀ entry ∈ removals prepared.targets prepared.byType, ∀ capability ∈ entry.2,
      Detachable session.scene entry.1 capability :=
    List.forall_mem_map.mpr (detachable_of_fits wf fits ordinary)
  have feasible : (∀ entry ∈ removals prepared.targets prepared.byType,
      Feasible session.scene prepared.plan entry.1 entry.2) ↔ prepared.Compatible session.scene :=
    List.forall_mem_map.trans (compatible_iff wf fits).symm
  have outcome := modifyEach_outcome granted fits.parent _ (names.symm ▸ fits.known) detachable []
    (names.symm ▸ fits.distinct) (fun _ _ => List.not_mem_nil)
    (by rw [names]; exact List.Subset.refl _) (List.nil_subset _) (.refl wf)
  rw [feasible] at outcome
  rw [finish, WP.bind_iff]
  refine outcome.mono ?_ ?_
  · rintro batch left ⟨remain, compatible⟩
    have shown := summaries_succeeds (granted _) prepared.targets left
      (List.Subset.trans fits.known remain)
    exact WP.bind_iff.mpr (shown.mono (fun _ _ _ => WP.pure_iff.mpr compatible)
      fun _ _ never => never.elim)
  · rintro report left (⟨-, untouched⟩ | conflict)
    · exact Or.inl untouched
    · exact Or.inr conflict

end

/-! ### The trace -/

section

variable (granted : ∀ request, editor.host.Grants request) {plan : ModifyPlan}
variable (known : id ∈ base.entities.map Entity.id)
variable (fit : ∀ parent, plan.parent = some (some parent) →
  parent ∈ base.entities.map Entity.id ∧ ∀ other ∈ [id], ¬ base.Below parent other)
variable (all : editor.AllAttachable base plan.added) {capability : CapabilityId}
variable (detachable : Detachable base id capability) (removed : List CapabilityId)
variable (wf : session.scene.WellFormed) (same : session.scene = base)
include granted known fit all detachable wf same

theorem restructure_detaches :
    WP (editor.restructure id plan (capability :: removed))
      (fun _ left => Lost capability left.scene) (fun _ left => Lost capability left.scene)
      session := by
  subst same
  rw [restructure, WP.bind_iff, WP.outcome_iff]
  refine (attachAndMove_outcome granted (List.mem_singleton_self id) known (.refl wf) fit).mono ?_
    fun _ _ failed => absurd all failed.1
  rintro _ left ⟨-, only, gains⟩
  obtain ⟨type, ordinary, carried⟩ := detachable
  have here := gains.stays carried
  have done := here.detach_eq_ok ((only.isTransform type).trans ordinary)
  have accepted : (editor.detachRequest id capability left.scene).result = .ok ((), _) :=
    detachRequest_eq_ok_iff.mpr ⟨(granted _).refuses _ _, done⟩
  rw [WP.bind_iff, detachFrom, WP.bind_iff, WP.outcome_iff, WP.require_iff, accepted]
  have stable := lost_stable capability
  refine (editor.detachFrom_keeps stable id true removed _ (here.lost only.wellFormed done)).mono ?_
    fun _ _ lost => lost
  rintro ⟨changed, _ | _⟩ after lost
  · exact WP.pure_iff.mpr lost
  · refine ((editor.changeRecord_keeps (stable.at id) plan.record).outcome.bind
      fun outcome => ?_ : Keeps (fun scene _ => Lost capability scene) _) after lost
    cases outcome with
    | error report => exact Keeps.pure _
    | ok _ => exact Keeps.pure _

theorem modifyOne_detaches :
    WP (editor.modifyOne plan id (capability :: removed))
      (fun _ left => Lost capability left.scene) (fun _ left => Lost capability left.scene)
      session := by
  rw [modifyOne, WP.bind_iff]
  refine (restructure_detaches granted known fit all detachable removed wf same).mono ?_
    fun _ _ lost => lost
  rintro ⟨changed, outcome⟩ left lost
  have rest : Keeps (fun scene _ => Lost capability scene)
      (.ofExcept outcome >>= fun _ => editor.writeProperties id plan.writes) :=
    (Keeps.ofExcept outcome).bind fun _ => editor.writeProperties_keeps (lost_stable _) id _
  exact Keeps.ite ((note_keeps _).bind fun _ => rest) rest left lost

end

/-- Where all can be attached, a modification that detaches anything leaves a trace, however it
ends. -/
theorem finish_leaves_trace (granted : ∀ request, editor.host.Grants request)
    (wf : base.WellFormed) (fits : prepared.Fits editor.host base)
    (ordinary : ∀ type ∈ prepared.removed, base.isTransform type = false)
    (all : editor.AllAttachable base prepared.plan.added) (detaches : prepared.removed ≠ [])
    (same : session.scene = base) :
    WP (editor.finish prepared) (fun _ left => ¬ base.Agrees left.scene)
      (fun _ left => ¬ base.Agrees left.scene) session := by
  obtain ⟨first, others, targets⟩ := List.exists_cons_of_ne_nil fits.nonempty
  have isTarget : first ∈ prepared.targets := targets ▸ List.mem_cons_self
  obtain ⟨pairs, removes, types, capabilities⟩ := exists_removes wf fits isTarget
  obtain ⟨pair, rest, rfl⟩ := List.exists_cons_of_ne_nil fun none : pairs = [] =>
    detaches (by rw [← types, none, List.map_nil])
  have fit : ∀ parent, prepared.plan.parent = some (some parent) →
      parent ∈ base.entities.map Entity.id ∧ ∀ other ∈ [first], ¬ base.Below parent other :=
    fun parent moves => ⟨(fits.parent parent moves).1,
      List.forall_mem_singleton.mpr ((fits.parent parent moves).2 first isTarget)⟩
  have detachable : Detachable base first pair.2 := removes.detachable (types.symm ▸ ordinary)
    pair.2 List.mem_cons_self
  have lost := modifyOne_detaches granted (fits.known isTarget) fit all detachable
    (rest.map Prod.snd) (same ▸ wf) same
  have stable := lost_stable pair.2
  have entries : removals prepared.targets prepared.byType =
      (first, pair.2 :: rest.map Prod.snd) :: removals others prepared.byType := by
    rw [targets, removals, List.map_cons]
    exact congrArg (fun ids => (first, ids) :: _) capabilities.symm
  have remains : ∀ {left : Session}, Lost pair.2 left.scene → ¬ base.Agrees left.scene :=
    fun lost => lost.not_agrees (removes.carried pair List.mem_cons_self)
  rw [finish, entries, modifyEach, WP.bind_iff, WP.bind_iff, WP.reporting_iff]
  refine lost.mono ?_ fun _ _ lost => remains lost
  intro report left lost
  refine WP.bind_iff.mpr ((editor.modifyEach_keeps stable _ _ _ left lost).mono ?_
    fun _ _ lost => remains lost)
  intro _ after lost
  have shown := editor.summaries_keeps (P := fun scene _ => Lost pair.2 scene) prepared.targets
    after lost
  exact WP.pure_iff.mpr (WP.bind_iff.mpr (shown.mono
    (fun _ _ lost => WP.pure_iff.mpr (remains lost)) fun _ _ lost => remains lost))

/-- Where all can be attached, a modification whose parts get in each other's way fails, and leaves
a trace. -/
theorem modify_leaves_trace (granted : ∀ request, editor.host.Grants request)
    (wf : session.scene.WellFormed) {params : Modify} {left : Session}
    (ran : (editor.prepare params).run session = (.ok prepared, left))
    (ordinary : ∀ type ∈ prepared.removed, session.scene.isTransform type = false)
    (all : editor.AllAttachable session.scene prepared.plan.added)
    (conflict : ¬ prepared.Compatible session.scene) :
    WP (editor.modify params) (fun _ _ => False)
      (fun _ after => ¬ session.scene.Agrees after.scene) session := by
  have fits := (prepare_fits wf (granted _) params session rfl).ok ran
  have scene : left.scene = session.scene :=
    (editor.prepare_keeps params (P := fun now _ => now = session.scene) session rfl).ok ran
  have detaches : prepared.removed ≠ [] := by
    intro none
    refine conflict ⟨by simp [none], fun write _ removed => ?_⟩
    simp [none] at removed
  have ends := (finish_outcome granted wf fits ordinary scene).and
    (finish_leaves_trace granted wf fits ordinary all detaches scene)
  rw [modify]
  exact WP.bind_of_run ran
    (ends.mono (fun _ _ holds => conflict holds.1) fun _ _ holds => holds.2)

/-- A modification leaves no trace when it fails, if its parts do not get in each other's way where
all can be attached. -/
theorem modify_whole (granted : ∀ request, editor.host.Grants request)
    (wf : session.scene.WellFormed) {params : Modify}
    (ordinary : ∀ prepared left, (editor.prepare params).run session = (.ok prepared, left) →
      ∀ type ∈ prepared.removed, session.scene.isTransform type = false)
    (compatible : ∀ prepared left, (editor.prepare params).run session = (.ok prepared, left) →
      editor.AllAttachable session.scene prepared.plan.added →
        prepared.Compatible session.scene) :
    WP (editor.modify params) (fun _ _ => True)
      (fun _ after => session.scene.Agrees after.scene ∧ after.notes = session.notes) session := by
  have finds := (WP.run (editor.prepare params) session).and
    (prepare_fits wf (granted _) params session rfl)
  have quiet := editor.prepare_keeps params
    (P := fun now sent => now = session.scene ∧ sent = session.notes) session ⟨rfl, rfl⟩
  rw [modify, WP.bind_iff]
  refine (finds.and quiet).mono ?_ ?_
  · rintro prepared left ⟨⟨ran, fits⟩, scene, sent⟩
    have ends := finish_outcome granted wf fits (ordinary _ _ ran) scene
    refine ends.mono (fun _ _ _ => trivial) ?_
    rintro report after (untouched | ⟨all, conflict⟩)
    · rwa [sent] at untouched
    · exact absurd (compatible _ _ ran all) conflict
  · rintro report left ⟨-, scene, sent⟩
    rw [scene]
    exact ⟨.refl _, sent⟩

/-- In every reachable scene, on a host that refuses nothing, for a request that does not detach the
transform: a modification that fails leaves the scene as it was, counters apart, and sends no note,
if and only if its parts, as they are looked up, do not get in each other's way where all that it
attaches can be attached. -/
theorem modify_all_or_nothing_iff (editor : Editor) (plain : editor.host.refusals = [])
    {session : Session} (reached : session.scene.Reachable) (params : Modify)
    (ordinary : ∀ prepared left, (editor.prepare params).run session = (.ok prepared, left) →
      ∀ type ∈ prepared.removed, session.scene.isTransform type = false) :
    AllOrNothing session (editor.modify params) ↔
      ∀ prepared left, (editor.prepare params).run session = (.ok prepared, left) →
        editor.AllAttachable session.scene prepared.plan.added →
          prepared.Compatible session.scene := by
  have granted := Host.grants_of_plain plain
  have wf := reached.wellFormed
  constructor
  · intro whole prepared left ran all
    by_contra conflict
    have fails := modify_leaves_trace granted wf ran (ordinary _ _ ran) all conflict
    cases run : (editor.modify params).run session with
    | mk outcome after =>
        cases outcome with
        | ok report => exact fails.ok run
        | error report => exact fails.error run (whole report after run).1
  · intro compatible report after run
    exact (modify_whole granted wf ordinary compatible).error run

/-- A request to exchange a capability for one with a property that there is not. -/
def exchange : Modify :=
  ⟨{ term := "Lamp" }, none, none, none, none, .keep, ⟨none, none, none⟩,
    [⟨"Health", [("volume", .str "high")]⟩], ["Health"], []⟩

/-- An exchange that fails takes back what was attached, which the counter shows. -/
theorem modify_all_or_nothing_iff_of_exchange :
    let exchanged := (({ host := lampHost [] } : Editor).modify exchange).run wornSession
    exchanged.1.isOk = false ∧ exchanged.2.scene.nextCapability = 4 ∧
      wornSession.scene.Agrees exchanged.2.scene := by
  have named : ((({ host := lampHost [] } : Editor).prepare exchange).run
      wornSession).1.toOption.all (fun prepared => prepared.plan.writes.isEmpty &&
        decide (prepared.removed = [⟨⟨"Health"⟩, "Game", .capability⟩])) = true := by decide +kernel
  have found : ∀ prepared left, (({ host := lampHost [] } : Editor).prepare exchange).run
      wornSession = (.ok prepared, left) → prepared.plan.writes = [] ∧
        prepared.removed = [⟨⟨"Health"⟩, "Game", .capability⟩] := by
    intro prepared left ran
    rw [ran] at named
    simpa [Except.toOption] using named
  have whole := modify_all_or_nothing_iff { host := lampHost [] } rfl wornSession_reachable exchange
    (fun prepared left ran type member => by
      rw [(found prepared left ran).2, List.mem_singleton] at member
      rw [member]
      decide +kernel)
  refine ⟨by decide +kernel, by decide +kernel, AllOrNothing.agrees (whole.mpr ?_)
    (by decide +kernel)⟩
  intro prepared left ran _
  obtain ⟨writes, removed⟩ := found prepared left ran
  exact ⟨by simp [removed], by simp [writes]⟩

/-- A request to detach a capability and to write it. -/
def detachAndWrite : Modify :=
  ⟨{ term := "Lamp" }, none, none, none, none, .keep, ⟨none, none, none⟩, [], ["Health"],
    [("Health", .obj [])]⟩

/-- Not every modification that spares the transform is all or nothing. -/
theorem modify_not_all_or_nothing :
    ¬ ∀ (editor : Editor) (session : Session) (params : Modify), editor.host.refusals = [] →
      session.scene.Reachable →
      (∀ prepared left, (editor.prepare params).run session = (.ok prepared, left) →
        ∀ type ∈ prepared.removed, session.scene.isTransform type = false) →
      AllOrNothing session (editor.modify params) := by
  intro claim
  have named : ((({ host := lampHost [] } : Editor).prepare detachAndWrite).run
      wornSession).1.toOption.all (fun prepared => prepared.removed.all fun type =>
        !wornSession.scene.isTransform type) = true := by decide +kernel
  have whole := claim { host := lampHost [] } wornSession detachAndWrite rfl wornSession_reachable
    (fun prepared left ran => by
      rw [ran] at named
      simpa [Except.toOption] using named)
  have kept := (whole.agrees (by decide +kernel)).entities
  exact absurd (congrArg (List.map fun entity => entity.capabilities.length) kept)
    (by decide +kernel)

end Editor
end SceneEdit
