import SceneEdit.Proofs.Session.Modify
import SceneEdit.Proofs.Session.Reachable

/-!
# Moving many entities under one parent

Whether a move would close a circle is asked once before the first entity is touched, and again by
the scene for every single move, in the hierarchy that the moves before it have left. The second
question never gets another answer than the first. The new parent lies below none of the entities
that are moved, so no link above it is one of theirs, and it keeps all that lies above it while they
are moved, in any order and even if some of them lie below others (`Scene.OnlyAt.exists_setParent`).
What is attached, detached and written between two moves is done to the entities that are moved, and
changes no link.
-/

namespace SceneEdit

namespace Scene

variable {base scene changed : Scene} {id : EntityId} {parent : Option EntityId}

/-! ### One move -/

theorem WellFormed.parentOf?_setParent (wf : scene.WellFormed)
    (done : scene.setParent id parent = .ok changed) (other : EntityId) :
    changed.parentOf? other = if other = id then parent else scene.parentOf? other := by
  have changedWf := wf.setParent done
  obtain ⟨entity, found, -, rfl⟩ := setParent_eq_ok_iff.mp done
  obtain ⟨-, rfl⟩ := mem_of_entity? found
  split
  · rename_i here
    subst here
    have inside : { entity with parent } ∈ scene.moved entity parent := mem_moved.mpr (Or.inr rfl)
    exact changedWf.parentOf?_of_mem inside
  · exact parentOf?_moved wf changedWf ‹_›

theorem parentOf?_modify {change : Entity → Entity}
    (keepsId : ∀ entity, (change entity).id = entity.id)
    (keepsParent : ∀ entity, (change entity).parent = entity.parent) (other : EntityId) :
    (scene.modify id change).parentOf? other = scene.parentOf? other := by
  rw [parentOf?, parentOf?, entity?_modify keepsId]
  cases scene.entity? other with
  | none => rfl
  | some entity =>
      simp only [Option.map_some, Option.bind_some]
      split
      · exact keepsParent entity
      · rfl

/-! ### Many moves -/

/-- Some entities have been put under a parent, and no others have changed. -/
structure Regrouped (base : Scene) (parent : Option EntityId) (ids : List EntityId)
    (scene : Scene) : Prop where
  only : base.OnlyAt ids scene
  under : ∀ id ∈ ids, scene.parentOf? id = parent

namespace Regrouped

variable {ids more : List EntityId}

theorem refl (wf : base.WellFormed) : base.Regrouped parent [] base :=
  ⟨.refl wf, by simp⟩

theorem parentOf? (regrouped : base.Regrouped parent ids scene) (id : EntityId) :
    scene.parentOf? id = if id ∈ ids then parent else base.parentOf? id := by
  split
  · exact regrouped.under id ‹_›
  · rw [Scene.parentOf?, regrouped.only.others id ‹_›]
    rfl

theorem trans (first : base.Regrouped parent ids scene)
    (second : scene.Regrouped parent more changed) :
    base.Regrouped parent (ids ++ more) changed where
  only := first.only.trans second.only
  under id member := by
    rw [second.parentOf?]
    split
    · rfl
    · exact first.under id ((List.mem_append.mp member).resolve_right ‹_›)

/-- An entity is moved, whatever else has been done to it. -/
theorem of_setParent (only : base.OnlyAt [id] scene)
    (done : scene.setParent id parent = .ok changed) : base.Regrouped parent [id] changed where
  only := only.setParent (List.mem_singleton_self id) done
  under other member := by
    rw [only.wellFormed.parentOf?_setParent done, if_pos (List.mem_singleton.mp member)]

theorem detach (regrouped : base.Regrouped parent [id] scene) {capability : CapabilityId}
    (done : scene.detach id capability = .ok changed) : base.Regrouped parent [id] changed where
  only := regrouped.only.detach (List.mem_singleton_self id) done
  under other member := by
    obtain ⟨_, _, _, _, _, rfl⟩ := detach_eq_ok_iff.mp done
    rw [← regrouped.under other member]
    exact parentOf?_modify (fun entity => entity.minus_id capability)
      (fun entity => entity.minus_parent capability) other

theorem edit (regrouped : base.Regrouped parent [id] scene) (edit : RecordEdit) :
    base.Regrouped parent [id] (scene.modify id edit.apply) where
  only := regrouped.only.edit (List.mem_singleton_self id) edit
  under other member := by
    rw [parentOf?_modify edit.keeps_id edit.keeps_parent]
    exact regrouped.under other member

end Regrouped
end Scene

namespace Editor

open Edit Scene

variable {editor : Editor} {base : Scene} {session : Session} {id : EntityId}
variable {parent : Option EntityId} {plan : ModifyPlan}

/-- The requests to move entities under a parent, one after the other. -/
def moveAll (editor : Editor) (parent : Option EntityId) : List EntityId → Edit Unit
  | [] => return ()
  | id :: rest => do
    Edit.require "re-parent" (editor.parentRequest id parent)
    editor.moveAll parent rest

/-- None of the requests is refused. -/
theorem moveAll_outcome (moves : editor.host.Grants .setParent) {all ids done : List EntityId}
    (admitted : base.Admits all parent) (known : ids ⊆ base.entities.map Entity.id)
    (among : ids ⊆ all) (before : done ⊆ all)
    (regrouped : base.Regrouped parent done session.scene) :
    WP (editor.moveAll parent ids)
      (fun _ left => base.Regrouped parent (done ++ ids) left.scene) (fun _ _ => False)
      session := by
  induction ids generalizing done session with
  | nil =>
      rw [List.append_nil]
      exact WP.pure_iff.mpr regrouped
  | cons id rest ih =>
      obtain ⟨isKnown, known⟩ := List.cons_subset.mp known
      obtain ⟨here, among⟩ := List.cons_subset.mp among
      have only := regrouped.only
      obtain ⟨changed, done'⟩ := (only.mono before).exists_setParent here isKnown admitted
      have accepted : (editor.parentRequest id parent session.scene).result = .ok ((), changed) :=
        parentRequest_eq_ok_iff.mpr ⟨moves.refuses _ _, done'⟩
      rw [moveAll, WP.bind_iff, WP.require_iff, accepted, List.append_cons done]
      refine ih known among (List.append_subset.mpr ⟨before, by simpa using here⟩) ?_
      exact regrouped.trans (.of_setParent (.refl only.wellFormed) done')

/-! ### Moves in a modification -/

section

variable (editor)

theorem detachFrom_regrouped (changed : Bool) (removed : List CapabilityId) :
    Keeps (fun scene _ => base.Regrouped parent [id] scene)
      (editor.detachFrom id changed removed) := by
  induction removed generalizing changed with
  | nil => exact Keeps.pure _
  | cons capability rest ih =>
      refine Keeps.bind (Keeps.outcome (Keeps.require fun _ _ _ _ h made => ?_)) fun outcome => ?_
      · exact h.detach (detachRequest_eq_ok_iff.mp made).2
      · cases outcome with
        | error report => exact Keeps.pure _
        | ok _ => exact ih true

theorem changeRecord_regrouped (change : RecordChange) :
    Keeps (fun scene _ => base.Regrouped parent [id] scene) (editor.changeRecord id change) :=
  Keeps.scene.bind fun _ => (Keeps.ofOption _ _).bind fun _ =>
    Keeps.modifyEntity fun _ _ h => h.edit (.ofRecordChange change)

theorem writeProperties_regrouped (writes : Writes) :
    Keeps (fun scene _ => base.Regrouped parent [id] scene)
      (editor.writeProperties id writes) := by
  induction writes with
  | nil => exact Keeps.pure _
  | cons write rest ih =>
      apply (editor.capabilityOf_keeps _ id).bind
      intro capability
      have written : Keeps (fun scene _ => base.Regrouped parent [id] scene)
          (editor.writeEach id write.1 capability.id write.2) := by
        apply (editor.stateOf_keeps id capability.id).bind
        intro state
        refine (Keeps.modifyEntity fun _ _ h => ?_).bind fun _ => (Keeps.ofAttempt _).bind fun _ =>
          Keeps.ite ((note_keeps _).bind fun _ => Keeps.pure _) (Keeps.pure _)
        exact h.edit (.setState capability.id _)
      exact written.bind fun _ => ih.bind fun _ => Keeps.pure _

end

section

variable (granted : ∀ request, editor.host.Grants request)
variable (moves : plan.parent = some parent) (wf : session.scene.WellFormed)
variable (known : id ∈ session.scene.entities.map Entity.id)
include granted moves wf known

theorem attachAndMove_regroups :
    WP (editor.attachAndMove id plan)
      (fun _ left => session.scene.Regrouped parent [id] left.scene) (fun _ _ => True) session := by
  have attaches := attachAll_outcome granted (List.mem_singleton_self id) known plan.added []
    (.refl wf)
  rw [attachAndMove, moves, WP.bind_iff]
  refine attaches.mono ?_ fun _ _ _ => trivial
  rintro attached left ⟨-, only, -⟩
  rw [WP.orUndo_iff, WP.require_iff]
  cases asked : (editor.parentRequest id parent left.scene).result with
  | error refusal => exact (WP.true _).mono (fun _ _ _ => trivial) fun _ _ _ => trivial
  | ok made => exact .of_setParent only (parentRequest_eq_ok_iff.mp asked).2

theorem restructure_regroups (removed : List CapabilityId) :
    WP (editor.restructure id plan removed)
      (fun result left => result.2 = .ok () → session.scene.Regrouped parent [id] left.scene)
      (fun _ _ => True) session := by
  rw [restructure, WP.bind_iff, WP.outcome_iff]
  refine (attachAndMove_regroups granted moves wf known).mono ?_
    fun _ _ _ => WP.pure_iff.mpr fun never => by cases never
  intro _ left regrouped
  rw [WP.bind_iff]
  refine (editor.detachFrom_regrouped _ removed left regrouped).mono ?_ fun _ _ _ => trivial
  rintro ⟨changed, _ | _⟩ detached regrouped
  · exact WP.pure_iff.mpr fun never => by cases never
  · rw [WP.bind_iff, WP.outcome_iff]
    refine (editor.changeRecord_regrouped plan.record detached regrouped).mono ?_
      fun _ _ _ => WP.pure_iff.mpr fun never => by cases never
    exact fun _ _ regrouped => WP.pure_iff.mpr fun _ => regrouped

theorem modifyOne_regroups (removed : List CapabilityId) :
    WP (editor.modifyOne plan id removed)
      (fun _ left => session.scene.Regrouped parent [id] left.scene) (fun _ _ => True) session := by
  rw [modifyOne, WP.bind_iff]
  refine (restructure_regroups granted moves wf known removed).mono ?_ fun _ _ _ => trivial
  rintro ⟨changed, outcome⟩ left holds
  have rest : ∀ now : Session, now.scene = left.scene →
      WP (.ofExcept outcome >>= fun _ => editor.writeProperties id plan.writes)
        (fun _ after => session.scene.Regrouped parent [id] after.scene) (fun _ _ => True) now := by
    intro now same
    rw [WP.bind_iff, WP.ofExcept_iff]
    cases outcome with
    | error report => trivial
    | ok _ =>
        have regrouped : session.scene.Regrouped parent [id] (now.log []).scene :=
          same.symm ▸ holds rfl
        exact (editor.writeProperties_regrouped plan.writes _ regrouped).mono (fun _ _ h => h)
          fun _ _ _ => trivial
  cases changed with
  | true => exact WP.bind_iff.mpr (WP.note_iff.mpr (rest _ rfl))
  | false => exact rest left rfl

end

/-- Entities that a modification has been carried out on are under the new parent. -/
theorem modifyEach_regroups (granted : ∀ request, editor.host.Grants request)
    (moves : plan.parent = some parent) (entities : List (EntityId × List CapabilityId))
    (known : entities.map Prod.fst ⊆ base.entities.map Entity.id) {done : List EntityId}
    (finished : List EntityId) (regrouped : base.Regrouped parent done session.scene) :
    WP (editor.modifyEach plan finished entities)
      (fun _ left => base.Regrouped parent (done ++ entities.map Prod.fst) left.scene)
      (fun _ _ => True) session := by
  induction entities generalizing session done finished with
  | nil =>
      rw [List.map_nil, List.append_nil]
      exact WP.pure_iff.mpr regrouped
  | cons entry rest ih =>
      obtain ⟨here, known⟩ := List.cons_subset.mp known
      have only := regrouped.only
      rw [modifyEach, List.map_cons, List.append_cons done, WP.bind_iff, WP.reporting_iff]
      refine (modifyOne_regroups granted moves only.wellFormed (only.remain here) entry.2).mono ?_
        fun _ _ _ => trivial
      intro report left moved
      rw [WP.bind_iff]
      refine (ih known _ (regrouped.trans moved)).mono ?_ fun _ _ _ => trivial
      exact fun _ _ regrouped => WP.pure_iff.mpr regrouped

/-- What a modification does before it moves an entity: the entities before it are done with, and
capabilities are attached to it. -/
def beforeMove (editor : Editor) (plan : ModifyPlan)
    (finished : List (EntityId × List CapabilityId)) (id : EntityId) :
    Edit (List (EntityId × CapabilityId)) := do
  let _ ← editor.modifyEach plan [] finished
  editor.attachAll [] (plan.added.map fun (type, properties) => (id, type, properties))

/-- When a modification comes to move an entity, the request is not refused. -/
theorem beforeMove_outcome (granted : ∀ request, editor.host.Grants request)
    (moves : plan.parent = some parent) {all : List EntityId} (admitted : base.Admits all parent)
    (finished : List (EntityId × List CapabilityId))
    (known : finished.map Prod.fst ⊆ base.entities.map Entity.id)
    (among : finished.map Prod.fst ⊆ all) (isKnown : id ∈ base.entities.map Entity.id)
    (here : id ∈ all) (wf : base.WellFormed) (same : session.scene = base) :
    WP (editor.beforeMove plan finished id)
      (fun _ left => ∃ moved, (editor.parentRequest id parent left.scene).result = .ok ((), moved))
      (fun _ _ => True) session := by
  subst same
  rw [beforeMove, WP.bind_iff]
  refine (modifyEach_regroups granted moves finished known [] (.refl wf)).mono ?_
    fun _ _ _ => trivial
  intro _ left regrouped
  have only := regrouped.only.mono among
  refine (attachAll_outcome granted here isKnown plan.added [] only).mono ?_ fun _ _ _ => trivial
  rintro attached there ⟨-, only, -⟩
  obtain ⟨moved, done⟩ := only.exists_setParent here isKnown admitted
  exact ⟨moved, parentRequest_eq_ok_iff.mpr ⟨(granted _).refuses _ _, done⟩⟩

/-! ### The check -/

/-- The check fails exactly if the new parent lies below one of the entities to move. -/
theorem checkParent_outcome (wf : session.scene.WellFormed)
    (views : editor.host.Grants .viewEntity) (targets : List EntityId) (above : EntityId) :
    WP (editor.checkParent targets (some (some above)))
      (fun _ left => left = session ∧ ∀ target ∈ targets, ¬ session.scene.Below above target)
      (fun report left => left = session ∧ report.error.kind = .structuralConflict ∧
        ∃ target ∈ targets, session.scene.Below above target) session := by
  rw [checkParent, WP.bind_iff, WP.scene_iff]
  split
  · rename_i target found
    refine WP.fail_iff.mpr ⟨rfl, rfl, target, List.mem_of_find?_eq_some found, ?_⟩
    exact (views.isWithin_iff wf.toForest).mp (List.find?_some found)
  · rename_i none
    refine WP.pure_iff.mpr ⟨rfl, fun target member below => ?_⟩
    exact List.find?_eq_none.mp none target member
      ((views.isWithin_iff wf.toForest).mpr below)

/-- What has passed the check can be moved. -/
theorem admits_of_checkParent (wf : session.scene.WellFormed)
    (views : editor.host.Grants .viewEntity) {targets : List EntityId}
    (there : ∀ above, parent = some above → above ∈ session.scene.entities.map Entity.id)
    (checked : ((editor.checkParent targets (some parent)).run session).1 = .ok ()) :
    session.scene.Admits targets parent := by
  rintro above rfl
  refine ⟨there above rfl, ?_⟩
  have ran : (editor.checkParent targets (some (some above))).run session = (.ok (), _) :=
    Prod.ext checked rfl
  exact ((checkParent_outcome wf views targets above).ok ran).2

/-! ### Carrying out what is prepared -/

section

variable {prepared : Prepared} (granted : ∀ request, editor.host.Grants request)
variable (wf : base.WellFormed) (fits : prepared.Fits editor.host base)
variable (same : session.scene = base)
include granted wf fits same

theorem finish_regroups (moves : prepared.plan.parent = some parent) :
    WP (editor.finish prepared)
      (fun _ left => base.Regrouped parent prepared.targets left.scene) (fun _ _ => True)
      session := by
  subst same
  have names := map_fst_removals prepared.targets prepared.byType
  have each := modifyEach_regroups granted moves (removals prepared.targets prepared.byType)
    (names.symm ▸ fits.known) [] (.refl wf)
  rw [names, List.nil_append] at each
  rw [finish, WP.bind_iff]
  refine each.mono ?_ fun _ _ _ => trivial
  intro batch left regrouped
  rw [WP.bind_iff]
  refine (editor.summaries_keeps (P := fun scene _ => session.scene.Regrouped parent
    prepared.targets scene) prepared.targets left regrouped).mono ?_ fun _ _ _ => trivial
  exact fun _ _ regrouped => WP.pure_iff.mpr regrouped

/-- Moving entities and changing their records does not fail. -/
theorem finish_succeeds (removes : prepared.removed = []) (adds : prepared.plan.added = [])
    (writes : prepared.plan.writes = []) :
    WP (editor.finish prepared) (fun _ _ => True) (fun _ _ => False) session := by
  subst same
  have names := map_fst_removals prepared.targets prepared.byType
  have none : prepared.byType = [] := by simpa [removes] using fits.detachable
  have bare : ∀ entry ∈ removals prepared.targets prepared.byType, entry.2 = [] := by
    rw [none]
    exact List.forall_mem_map.mpr fun _ _ => rfl
  have outcome := modifyEach_outcome granted fits.parent _ (names.symm ▸ fits.known)
    (fun entry member capability detached => by simp [bare entry member] at detached) []
    (names.symm ▸ fits.distinct) (fun _ _ => List.not_mem_nil)
    (by rw [names]; exact List.Subset.refl _) (List.nil_subset _) (.refl wf)
  rw [finish, WP.bind_iff]
  refine outcome.mono ?_ ?_
  · rintro batch left ⟨remain, -⟩
    have shown := summaries_succeeds (granted _) prepared.targets left
      (List.Subset.trans fits.known remain)
    exact WP.bind_iff.mpr (shown.mono (fun _ _ _ => WP.pure_iff.mpr trivial) fun _ _ h => h)
  · rintro report left (⟨never, -⟩ | ⟨-, never⟩)
    · exact never (by simp [AllAttachable, adds])
    · refine never fun entry member => ⟨?_, ?_⟩
      · rw [bare entry member]
        exact List.nodup_nil
      · simp [writes]

/-- When a prepared modification comes to move an entity, the request is not refused. -/
theorem finish_requests (moves : prepared.plan.parent = some parent)
    {finished rest : List (EntityId × List CapabilityId)} {removed : List CapabilityId}
    (split : removals prepared.targets prepared.byType = finished ++ (id, removed) :: rest) :
    WP (editor.beforeMove prepared.plan finished id)
      (fun _ left => ∃ moved, (editor.parentRequest id parent left.scene).result = .ok ((), moved))
      (fun _ _ => True) session := by
  have listed : prepared.targets = finished.map Prod.fst ++ id :: rest.map Prod.fst := by
    rw [← map_fst_removals prepared.targets prepared.byType, split, List.map_append, List.map_cons]
  have among : finished.map Prod.fst ⊆ prepared.targets := listed ▸ List.subset_append_left _ _
  have here : id ∈ prepared.targets := by simp [listed]
  have admitted : base.Admits prepared.targets parent := fun above under =>
    fits.parent above (moves.trans (congrArg some under))
  exact beforeMove_outcome granted moves admitted finished (List.Subset.trans among fits.known)
    among (fits.known here) here wf same

end

/-- A modification that comes to check a parent which lies below a target fails with a conflict. -/
theorem modify_conflict (wf : session.scene.WellFormed) (views : editor.host.Grants .viewEntity)
    {params : Modify} {gathered : Gathered} {ready : Session} {above : EntityId}
    (ran : (editor.gather params).run session = (.ok gathered, ready))
    (moves : gathered.parent = some (some above))
    (below : ∃ target ∈ gathered.targets, session.scene.Below above target) :
    WP (editor.modify params) (fun _ _ => False)
      (fun report left => report.error.kind = .structuralConflict ∧
        left.scene = session.scene ∧ left.notes = session.notes) session := by
  obtain ⟨same, sent⟩ : ready.scene = session.scene ∧ ready.notes = session.notes :=
    (editor.gather_keeps params
      (P := fun now sent => now = session.scene ∧ sent = session.notes) session ⟨rfl, rfl⟩).ok ran
  rw [modify, prepare, bind_assoc]
  apply WP.bind_of_run ran
  rw [moves, bind_assoc, WP.bind_iff]
  refine (checkParent_outcome (same ▸ wf) views gathered.targets above).mono ?_ ?_
  · rintro _ left ⟨-, outside⟩
    obtain ⟨target, member, below⟩ := below
    exact absurd (same.symm ▸ below) (outside target member)
  · rintro report left ⟨rfl, kind, -⟩
    exact ⟨kind, same, sent⟩

/-- In every reachable scene, on a host that refuses nothing: if the check against circles passes,
no request to move one of the entities under the parent is refused, whatever their order and
however they lie below each other. In the end they all are under the parent, the parents of others
are as before, and the scene is a forest.

The same holds of a modification, which does more to each entity than to move it: when it has been
prepared and comes to move an entity, the request is not refused; if it succeeds, all targets have
been moved; and it does succeed if it neither attaches nor detaches nor writes. A modification that
comes to check a parent which lies below a target fails with a conflict, and changes nothing. -/
theorem moves_checked_once (plain : editor.host.refusals = [])
    (reached : session.scene.Reachable) :
    (∀ targets parent, targets ⊆ session.scene.entities.map Entity.id →
      (∀ above, parent = some above → above ∈ session.scene.entities.map Entity.id) →
      ((editor.checkParent targets (some parent)).run session).1 = .ok () →
      ∃ after, (editor.moveAll parent targets).run session = (.ok (), after) ∧
        after.scene.Forest ∧ ∀ id, after.scene.parentOf? id =
          if id ∈ targets then parent else session.scene.parentOf? id) ∧
    (∀ params prepared ready parent,
      (editor.prepare params).run session = (.ok prepared, ready) →
      prepared.plan.parent = some parent →
      (∀ finished id removed rest,
        removals prepared.targets prepared.byType = finished ++ (id, removed) :: rest →
        ∀ attached now,
          (editor.beforeMove prepared.plan finished id).run ready = (.ok attached, now) →
          ∃ moved, (editor.parentRequest id parent now.scene).result = .ok ((), moved)) ∧
      (∀ report after, (editor.modify params).run session = (.ok report, after) →
        after.scene.Forest ∧ ∀ id, after.scene.parentOf? id =
          if id ∈ prepared.targets then parent else session.scene.parentOf? id) ∧
      (prepared.removed = [] → prepared.plan.added = [] → prepared.plan.writes = [] →
        ((editor.modify params).run session).1.isOk)) ∧
    (∀ params gathered ready above,
      (editor.gather params).run session = (.ok gathered, ready) →
      gathered.parent = some (some above) →
      (∃ target ∈ gathered.targets, session.scene.Below above target) →
      ∃ report after, (editor.modify params).run session = (.error report, after) ∧
        report.error.kind = .structuralConflict ∧ after.scene = session.scene ∧
        after.notes = session.notes) := by
  have granted := Host.grants_of_plain plain
  have wf := reached.wellFormed
  refine ⟨?_, ?_, ?_⟩
  · intro targets parent known there checked
    have admitted := admits_of_checkParent wf (granted _) there checked
    obtain ⟨_, after, ran, regrouped⟩ := (moveAll_outcome (granted _) admitted known
      (List.Subset.refl targets) (List.nil_subset _) (.refl wf)).exists_ok
    exact ⟨after, ran, regrouped.only.wellFormed.toForest, regrouped.parentOf?⟩
  · intro params prepared ready parent ran moves
    have fits := (prepare_fits wf (granted _) params session rfl).ok ran
    have same : ready.scene = session.scene :=
      (editor.prepare_keeps params (P := fun now _ => now = session.scene) session rfl).ok ran
    rw [modify]
    refine ⟨?_, ?_, ?_⟩
    · exact fun finished id removed rest split attached now before =>
        (finish_requests granted wf fits same moves split).ok before
    · intro report after modified
      have regrouped :=
        (WP.bind_of_run ran (finish_regroups granted wf fits same moves)).ok modified
      exact ⟨regrouped.only.wellFormed.toForest, regrouped.parentOf?⟩
    · intro removes adds writes
      obtain ⟨report, after, modified, -⟩ := (WP.bind_of_run ran
        (finish_succeeds granted wf fits same removes adds writes)).exists_ok
      rw [modified]
      rfl
  · intro params gathered ready above ran moves below
    exact (modify_conflict wf (granted _) ran moves below).exists_error

/-- A lamp and the shelf that it stands on are moved into a box; and the shelf is to be moved onto
the lamp. -/
theorem moves_checked_once_of_shelf :
    let room := ({} : Scene).after (.create "Room" none)
    let shelf := (room.after (.create "Shelf" (some ⟨1⟩))).after (.create "Lamp" (some ⟨2⟩))
    let session : Session := { scene := shelf.after (.create "Box" none) }
    let request : Modify :=
      ⟨{ term := "Shelf" }, none, none, none, none, .under "Lamp", ⟨none, none, none⟩, [], [], []⟩
    (∃ after, (({} : Editor).moveAll (some ⟨4⟩) [⟨3⟩, ⟨2⟩]).run session = (.ok (), after) ∧
      after.scene.parentOf? ⟨3⟩ = some ⟨4⟩ ∧ after.scene.parentOf? ⟨2⟩ = some ⟨4⟩) ∧
    ∃ report after, (({} : Editor).modify request).run session = (.error report, after) ∧
      report.error.kind = .structuralConflict ∧ after.scene = session.scene := by
  intro room shelf session request
  have reached : (shelf.after (.create "Box" none)).Reachable :=
    ((((Reachable.fresh _ _).step _).step _).step _).step _
  obtain ⟨moves, -, conflict⟩ := @moves_checked_once {} session rfl reached
  constructor
  · obtain ⟨after, ran, -, parents⟩ := moves [⟨3⟩, ⟨2⟩] (some ⟨4⟩) (by decide) (by decide) rfl
    exact ⟨after, ran, parents _, parents _⟩
  · have named : ((({} : Editor).gather request).run session).1.toOption.any (fun gathered =>
        decide (gathered.parent = some (some ⟨3⟩)) && decide (gathered.targets = [⟨2⟩])) =
          true := by
      decide +kernel
    rcases ran : (({} : Editor).gather request).run session with ⟨_ | gathered, ready⟩
    · simp [ran, Except.toOption] at named
    · obtain ⟨parent, targets⟩ : gathered.parent = some (some ⟨3⟩) ∧ gathered.targets = [⟨2⟩] := by
        simpa [ran, Except.toOption] using named
      obtain ⟨report, after, failed, kind, same, -⟩ :=
        conflict request gathered ready ⟨3⟩ ran parent
          ⟨⟨2⟩, by simp [targets], .single (by decide)⟩
      exact ⟨report, after, failed, kind, same⟩

end Editor
end SceneEdit
