import SceneEdit.Proofs.Session.Batch
import SceneEdit.Proofs.Session.Modify

/-!
# How a relative move ends

A relative move has two parts. `Editor.plot` looks everything up and changes nothing; then the
targets are put to their destination one after the other. It is checked before that each of them has
a capability to write the position into, but not that the position can be written. So a move that
fails has stopped at the first target where it cannot; the targets before it have been moved, and
observers have been told of them. A move is all or nothing if and only if the position can be
written on the first target only where it can be written on all of them
(`Editor.moveRelative_whole_iff`).
-/

namespace SceneEdit

namespace Access

variable {access : Access} {object : Object} {entry : String × Token}

theorem writeAll_singleton_object :
    (access.writeAll object [entry]).1 = access.tried object [entry] := by
  rw [writeAll, tried, List.foldl_cons, List.foldl_nil, attempted]
  dsimp only
  cases (access.write object entry.1 entry.2).result <;> rfl

theorem writeAll_singleton_result :
    (access.writeAll object [entry]).2.result = .ok () ↔
      (access.write object entry.1 entry.2).result.isOk = true := by
  rw [writeAll]
  dsimp only
  cases (access.write object entry.1 entry.2).result with
  | error report => simp [Except.isOk, Except.toBool]
  | ok changed => exact iff_of_true rfl rfl

/-- An entry that is not written leaves the object as it is. -/
theorem tried_singleton_of_failure
    (stopped : (access.write object entry.1 entry.2).result.isOk = false) :
    access.tried object [entry] = object := by
  rw [tried, List.foldl_cons, List.foldl_nil, attempted]
  cases outcome : (access.write object entry.1 entry.2).result with
  | error report => rfl
  | ok changed => simp [outcome, Except.isOk, Except.toBool] at stopped

end Access

namespace Editor

open Edit Scene

variable {editor : Editor} {base : Scene} {session : Session} {course : Course} {id : EntityId}
variable {first : Capability} {done : List EntityId}

/-- The entry that puts an entity to its destination. -/
def Course.entry (editor : Editor) (course : Course) : String × Token :=
  (editor.config.transform.position, course.destination.toToken)

/-- Whether the destination can be written on an entity. -/
def Course.canReach (editor : Editor) (scene : Scene) (course : Course) (id : EntityId) : Bool :=
  (scene.firstOf? course.type.fullName id).any fun first =>
    (editor.access.write first.state (course.entry editor).1 (course.entry editor).2).result.isOk

/-- The targets before the first one on which the destination cannot be written. -/
def Course.reached (editor : Editor) (scene : Scene) (course : Course) : List EntityId :=
  course.targets.takeWhile (course.canReach editor scene)

/-- The scene with entities at their destination. -/
def Course.arrived (editor : Editor) (scene : Scene) (course : Course) (ids : List EntityId) :
    Scene :=
  scene.changeFirsts course.type.fullName
    (fun state => editor.access.tried state [course.entry editor]) ids

/-- The notes that tell of entities at their destination. -/
def Course.notes (scene : Scene) (course : Course) (ids : List EntityId) : List Note :=
  ids.filterMap fun id => (scene.firstOf? course.type.fullName id).map fun first =>
    .wrote id first.id

/-! ### One target after the other -/

section

variable (edits : editor.host.Grants .editEntity) (views : editor.host.Grants .viewEntity)
variable (wf : base.WellFormed)
include edits views wf

/-- An entity that has not been moved is moved if its destination can be written. -/
theorem writePosition_outcome (has : base.firstOf? course.type.fullName id = some first)
    (new : id ∉ done) (wf' : session.scene.WellFormed)
    (same : session.scene = course.arrived editor base done) :
    WP (editor.writePosition course.type course.destination id)
      (fun capability left => course.canReach editor base id = true ∧ capability = first.id ∧
        left.scene.WellFormed ∧ left.scene = course.arrived editor base (done ++ [id]) ∧
        left.notes = session.notes)
      (fun _ left => course.canReach editor base id = false ∧ left.scene = session.scene ∧
        left.notes = session.notes) session := by
  have unmoved : session.scene.entity? id = base.entity? id := by
    rw [same]
    exact entity?_changeFirsts_of_not_mem new
  have has' : session.scene.firstOf? course.type.fullName id = some first := by
    rw [firstOf?, unmoved]
    exact has
  have reach : course.canReach editor base id = (editor.access.write first.state
      (course.entry editor).1 (course.entry editor).2).result.isOk := by
    rw [Course.canReach, has, Option.any_some]
  rw [writePosition, WP.bind_iff]
  refine (capabilityOf_runs views has').mono ?_ fun _ _ never => never.elim
  rintro _ left ⟨rfl, scene, notes⟩
  have holds : left.scene.Holds id _ _ := scene ▸ holds_of_firstOf? wf has unmoved
  rw [WP.bind_iff]
  refine (writeAll_runs edits [course.entry editor] holds).mono ?_ ?_
  · rintro _ after ⟨written, scene', notes'⟩
    rw [scene, Access.writeAll_singleton_object] at scene'
    refine WP.pure_iff.mpr ⟨reach.trans (Access.writeAll_singleton_result.mp written), rfl, ?_, ?_,
      notes'.trans notes⟩
    · rw [scene']
      exact wf'.edit id (.setState _ _)
    · rw [scene', same]
      exact changeFirsts_append wf has new
  · rintro _ after ⟨stopped, scene', notes'⟩
    have failed := Bool.eq_false_iff.mpr (mt Access.writeAll_singleton_result.mpr stopped)
    rw [Access.writeAll_singleton_object, Access.tried_singleton_of_failure failed,
      holds.setState_eq (scene ▸ wf')] at scene'
    exact ⟨reach.trans failed, scene'.trans scene, notes'.trans notes⟩

/-- Distinct entities are moved in turn, until one cannot be. -/
theorem writePositions_outcome {text : EntityId → String} {ids : List EntityId}
    (owned : ∀ id ∈ ids, (base.firstOf? course.type.fullName id).isSome = true)
    (distinct : (done ++ ids).Nodup) (wf' : session.scene.WellFormed)
    (same : session.scene = course.arrived editor base done) :
    let reached := ids.takeWhile (course.canReach editor base)
    WP (ids.forM fun id => do
        let transform ← editor.writePosition course.type course.destination id
        .note (.wrote id transform)
        .tell .info .placement (text id))
      (fun _ left => reached = ids ∧ left.scene = course.arrived editor base (done ++ reached) ∧
        left.notes = session.notes ++ course.notes base reached)
      (fun _ left => reached ≠ ids ∧ left.scene = course.arrived editor base (done ++ reached) ∧
        left.notes = session.notes ++ course.notes base reached) session := by
  induction ids generalizing session done with
  | nil =>
      refine WP.pure_iff.mpr ⟨rfl, ?_, (List.append_nil _).symm⟩
      rw [List.takeWhile_nil, List.append_nil]
      exact same
  | cons id rest ih =>
      obtain ⟨has, owned⟩ := List.forall_mem_cons.mp owned
      obtain ⟨first, has⟩ := Option.isSome_iff_exists.mp has
      have new : id ∉ done := by
        have apart := (List.nodup_append.mp distinct).2.2
        exact fun old => apart _ old _ List.mem_cons_self rfl
      rw [List.append_cons] at distinct
      rw [List.forM_eq_forM, List.forM_cons, WP.bind_iff, WP.bind_iff]
      refine (writePosition_outcome edits views wf has new wf' same).mono ?_ ?_
      · rintro _ left ⟨reach, rfl, wf', scene, notes⟩
        rw [WP.bind_iff, WP.note_iff, WP.tell_iff, List.takeWhile_cons_of_pos reach]
        have told : course.notes base (id :: rest.takeWhile (course.canReach editor base)) =
            .wrote id first.id ::
              course.notes base (rest.takeWhile (course.canReach editor base)) :=
          List.filterMap_cons_some (by rw [has]; rfl)
        rw [told, notes, List.append_cons done, List.append_cons session.notes]
        refine WP.mono (ih owned distinct ?_ ?_) ?_ ?_
        · exact wf'
        · exact scene
        · exact fun _ after ended => ⟨congrArg _ ended.1, ended.2⟩
        · exact fun _ after ended => ⟨fun all => ended.1 (List.cons.inj all).2, ended.2⟩
      · rintro _ left ⟨stuck, scene, notes⟩
        rw [List.takeWhile_cons_of_neg (by simp [stuck])]
        refine ⟨(List.cons_ne_nil _ _).symm, ?_, ?_⟩
        · rw [List.append_nil]
          exact scene.trans same
        · exact notes.trans (List.append_nil _).symm

end

/-! ### The two parts of a relative move -/

/-- The targets that are looked up are distinct entities that have a capability of the type. -/
theorem plot_finds (base : Scene) (params : MoveRelative) :
    Finds base (editor.plot params) fun course =>
      course.targets.Nodup ∧ course.targets ⊆ base.entities.map Entity.id ∧
      ∀ id ∈ course.targets, (base.firstOf? course.type.fullName id).isSome = true := by
  have checked : ∀ {α β : Type} {condition : Prop} [Decidable condition] {error : Error}
      {f : β → Edit α} {rest : Edit α} {fact : α → Prop}, Finds base rest fact →
      Finds base (if condition then fail error >>= f else rest) fact := by
    intro _ _ condition _ _ _ _ _ finds
    split
    · exact fun _ _ => WP.bind_iff.mpr (WP.fail_iff.mpr trivial)
    · exact finds
  apply checked
  apply Finds.bind (fun _ => editor.targets_keeps _) (targets_finds _ _)
  rintro targets ⟨distinct, known⟩
  apply Finds.bind (fun _ => editor.reference_keeps _) (Finds.any _ _)
  intro reference _
  apply checked
  apply Finds.bind (fun _ => editor.transformType_keeps) (Finds.any _ _)
  intro type _
  apply Finds.bind (fun _ => editor.destination_keeps params type reference) (Finds.any _ _)
  intro destination _
  apply Finds.bind (fun _ => editor.capabilitiesOf_keeps type targets)
    (Finds.ofScene fun pairs found => found)
  intro pairs found
  obtain ⟨firsts, rfl, -, owned⟩ := Host.exists_firsts found
  refine Finds.pure ⟨distinct, known, List.forall_mem_map.mpr fun owner member => ?_⟩
  rw [owned owner member]
  rfl

/-- The targets of a course are put to their destination until one cannot be. -/
theorem follow_outcome (granted : ∀ request, editor.host.Grants request) (wf : base.WellFormed)
    (direction : Direction) (distinct : course.targets.Nodup)
    (known : course.targets ⊆ base.entities.map Entity.id)
    (owned : ∀ id ∈ course.targets, (base.firstOf? course.type.fullName id).isSome = true)
    (same : session.scene = base) :
    WP (editor.follow direction course)
      (fun _ left => course.reached editor base = course.targets ∧
        left.scene = course.arrived editor base (course.reached editor base) ∧
        left.notes = session.notes ++ course.notes base (course.reached editor base))
      (fun _ left => course.reached editor base ≠ course.targets ∧
        left.scene = course.arrived editor base (course.reached editor base) ∧
        left.notes = session.notes ++ course.notes base (course.reached editor base)) session := by
  have start : session.scene = course.arrived editor base [] := same.trans changeFirsts_nil.symm
  rw [follow, WP.bind_iff]
  refine WP.mono (writePositions_outcome (granted _) (granted _) wf owned
    (show ([] ++ course.targets).Nodup from distinct) (same ▸ wf) start) ?_ fun _ _ ended => ended
  rintro _ left ⟨all, scene, notes⟩
  have known' : course.targets ⊆ left.scene.entities.map Entity.id := by
    rw [scene, Course.arrived, map_id_changeFirsts]
    exact known
  have kept := editor.summaries_keeps (P := fun now sent => now = left.scene ∧ sent = left.notes)
    course.targets left ⟨rfl, rfl⟩
  have shown := summaries_succeeds (granted .viewEntity) course.targets left known'
  rw [WP.bind_iff]
  refine (kept.and shown).mono ?_ fun _ _ never => never.2.elim
  rintro entities after ⟨⟨scene', notes'⟩, -⟩
  exact WP.pure_iff.mpr ⟨all, scene'.trans scene, notes'.trans notes⟩

/-- A move of which the first part fails changes nothing. -/
theorem moveRelative_of_error {params : MoveRelative} {report : Report}
    (failed : ((editor.plot params).run session).1 = .error report) :
    ∃ after, (editor.moveRelative params).run session = (.error report, after) ∧
      after.scene = session.scene ∧ after.notes = session.notes := by
  cases plotted : (editor.plot params).run session with
  | mk result middle =>
      obtain rfl : result = .error report := by rwa [plotted] at failed
      have kept := (editor.plot_keeps
        (P := fun scene notes => scene = session.scene ∧ notes = session.notes) params session
        ⟨rfl, rfl⟩).error plotted
      refine ⟨middle, ?_, kept⟩
      rw [moveRelative, run_bind, plotted]

/-- A move of which the first part succeeds goes as far as the destination can be written. -/
theorem moveRelative_of_ok (granted : ∀ request, editor.host.Grants request)
    (wf : session.scene.WellFormed) {params : MoveRelative}
    (plotted : ((editor.plot params).run session).1 = .ok course) :
    let moved := course.reached editor session.scene
    let ended := (editor.moveRelative params).run session
    ended.2.scene = course.arrived editor session.scene moved ∧
      ended.2.notes = session.notes ++ course.notes session.scene moved ∧
      (ended.1.isOk ↔ moved = course.targets) := by
  cases ran : (editor.plot params).run session with
  | mk result middle =>
      obtain rfl : result = .ok course := by rwa [ran] at plotted
      obtain ⟨scene, notes⟩ := (editor.plot_keeps
        (P := fun scene notes => scene = session.scene ∧ notes = session.notes) params session
        ⟨rfl, rfl⟩).ok ran
      obtain ⟨distinct, known, owned⟩ := (plot_finds _ params).of_run rfl plotted
      have outcome := WP.bind_of_run ran
        (follow_outcome granted wf params.direction distinct known owned scene)
      rw [← moveRelative] at outcome
      intro moved ended
      rcases last : ended with ⟨report | entities, after⟩
      · obtain ⟨some, scene', notes'⟩ := outcome.error last
        exact ⟨scene', notes ▸ notes', iff_of_false (by simp [Except.isOk, Except.toBool]) some⟩
      · obtain ⟨all, scene', notes'⟩ := outcome.ok last
        exact ⟨scene', notes ▸ notes', iff_of_true rfl all⟩

/-- Every entity that is moved is told of. -/
theorem Course.notes_ne_nil {ids : List EntityId}
    (owned : ∀ id ∈ ids, (base.firstOf? course.type.fullName id).isSome = true) (some : ids ≠ []) :
    course.notes base ids ≠ [] := by
  intro none
  obtain ⟨id, member⟩ := List.exists_mem_of_ne_nil ids some
  have missing := List.filterMap_eq_nil_iff.mp none id member
  rw [Option.map_eq_none_iff] at missing
  have has := owned id member
  rw [missing] at has
  cases has

/-- In every reachable scene, a relative move on a plain host ends in one of three ways: it fails
while things are looked up, and changes nothing; or it puts all targets to their destination and
succeeds; or it fails at a target, when those before it have been put to their destination, and have
been told of. So it is all or nothing if and only if it cannot stop between two targets. -/
theorem moveRelative_whole_iff (reached : session.scene.Reachable)
    (plain : editor.host.refusals = []) (params : MoveRelative) :
    (∀ report, ((editor.plot params).run session).1 = .error report →
      ∃ after, (editor.moveRelative params).run session = (.error report, after) ∧
        after.scene = session.scene ∧ after.notes = session.notes) ∧
    (∀ course, ((editor.plot params).run session).1 = .ok course →
      let moved := course.reached editor session.scene
      let after := ((editor.moveRelative params).run session).2
      after.scene = course.arrived editor session.scene moved ∧
      after.notes = session.notes ++ course.notes session.scene moved ∧
      (((editor.moveRelative params).run session).1.isOk ↔ moved = course.targets)) ∧
    (AllOrNothing session (editor.moveRelative params) ↔
      ∀ course, ((editor.plot params).run session).1 = .ok course →
        course.reached editor session.scene = [] ∨
        course.reached editor session.scene = course.targets) := by
  have wf := reached.wellFormed
  have granted := Host.grants_of_plain plain
  refine ⟨fun report => moveRelative_of_error, fun course => moveRelative_of_ok granted wf, ?_, ?_⟩
  · intro whole course plotted
    obtain ⟨-, notes, succeeds⟩ := moveRelative_of_ok granted wf plotted
    obtain ⟨-, -, owned⟩ := (plot_finds _ params).of_run rfl plotted
    refine or_iff_not_imp_right.mpr fun stopped => by_contra fun some => ?_
    rcases ran : (editor.moveRelative params).run session with ⟨report | entities, after⟩
    · rw [ran] at notes
      have untold := notes.symm.trans (whole report after ran).2
      refine course.notes_ne_nil (fun id member => ?_) some
        (List.self_eq_append_right.mp untold.symm)
      exact owned id ((List.takeWhile_sublist _).subset member)
    · exact stopped (succeeds.mp (by rw [ran]; rfl))
  · intro atOnce report after ran
    cases plotted : ((editor.plot params).run session).1 with
    | error complaint =>
        obtain ⟨left, ran', scene, notes⟩ := moveRelative_of_error plotted
        cases ran.symm.trans ran'
        exact ⟨scene ▸ .refl _, notes⟩
    | ok course =>
        obtain ⟨scene, notes, succeeds⟩ := moveRelative_of_ok granted wf plotted
        rw [ran] at scene notes succeeds
        have stopped := mt succeeds.mpr (by simp [Except.isOk, Except.toBool])
        have none := (atOnce course plotted).resolve_right stopped
        rw [none] at scene notes
        exact ⟨scene.trans changeFirsts_nil ▸ .refl _, notes.trans (List.append_nil _)⟩

/-! ### Lamps above a desk -/

/-- A transform at a height. -/
def raised (height : Int) : Object :=
  ⟨⟨"Transform"⟩, [⟨"localPosition", .property, .vector .vec3, true,
    .vector (.vec3 (.ofInt .single 0) (.ofInt .single height) (.ofInt .single 0))⟩], none⟩

/-- A host that knows the transform, in a scene that makes no use of it. -/
def lampEditor : Editor where
  host := lampHost []

theorem write_raised :
    (lampEditor.access.write (raised 5) "localPosition" (Vector3.ofInts 0 1 0).toToken).result =
      .ok (raised 1) := by
  have components : Coercion.toVector .vec3 (Vector3.ofInts 0 1 0).toToken.embedded =
      .ok (.vec3 (.ofInt .single 0) (.ofInt .single 1) (.ofInt .single 0)) := by
    decide +kernel
  have converted : ∀ current, (Coercion.coerce lampEditor.access.env "localPosition"
      (Vector3.ofInts 0 1 0).toToken (.vector .vec3) current).result = .ok (.vector
        (.vec3 (.ofInt .single 0) (.ofInt .single 1) (.ofInt .single 0))) := by
    intro current
    rw [Coercion.coerce, components]
    rfl
  refine Access.write_eq_ok_iff.mpr ⟨[.member 0], .vector .vec3, _, _, by decide +kernel,
    ⟨rfl, rfl, converted _, ?_⟩, rfl⟩
  rintro ⟨⟩

/-- Two lamps and a desk. -/
def deskSession (second : Object) : Session where
  scene :=
    let named := ((({} : Scene).after (.create "Lamp" none)).after (.create "Lamp" none)).after
      (.create "Desk" none)
    ((named.after (.attach ⟨1⟩ lampTransform.1 (raised 5))).after
      (.attach ⟨2⟩ lampTransform.1 second)).after (.attach ⟨3⟩ lampTransform.1 (raised 0))

theorem deskSession_reachable (second : Object) : (deskSession second).scene.Reachable :=
  ((((((Reachable.fresh _ none).step (.create "Lamp" none)).step (.create "Lamp" none)).step
    (.create "Desk" none)).step (.attach ⟨1⟩ lampTransform.1 (raised 5))).step
      (.attach ⟨2⟩ lampTransform.1 second)).step (.attach ⟨3⟩ lampTransform.1 (raised 0))

/-- All lamps to a place above the desk. -/
def aboveDesk : MoveRelative :=
  ⟨{ term := "Lamp", findAll := true }, "Desk", .up, .ofInt .single 1, none, true⟩

def lampCourse : Course := ⟨[⟨1⟩, ⟨2⟩], ⟨3⟩, lampTransform.1, .ofInts 0 1 0⟩

theorem canReach_raised {scene : Scene}
    (has : (scene.firstOf? lampTransform.1.fullName id).map Capability.state = some (raised 5)) :
    lampCourse.canReach lampEditor scene id = true := by
  obtain ⟨first, found, state⟩ := Option.map_eq_some_iff.mp has
  have written := write_raised
  rw [← state] at written
  have given : scene.firstOf? lampCourse.type.fullName id = some first := found
  rw [Course.canReach, given, Option.any_some]
  exact congrArg Except.isOk written

/-- Both lamps are moved and told of. -/
theorem moveRelative_whole_iff_of_lamps :
    let session := deskSession (raised 5)
    let moved := (lampEditor.moveRelative aboveDesk).run session
    moved.1.isOk = true ∧ moved.2.notes = [.wrote ⟨1⟩ ⟨1⟩, .wrote ⟨2⟩ ⟨2⟩] ∧
      AllOrNothing session (lampEditor.moveRelative aboveDesk) := by
  intro session moved
  have plotted : ((lampEditor.plot aboveDesk).run session).1 = .ok lampCourse := by
    decide +kernel
  have reach : ∀ id ∈ lampCourse.targets,
      lampCourse.canReach lampEditor session.scene id = true :=
    List.forall_mem_cons.mpr
      ⟨canReach_raised (by rfl), List.forall_mem_singleton.mpr (canReach_raised (by rfl))⟩
  have all : lampCourse.reached lampEditor session.scene = lampCourse.targets :=
    List.takeWhile_eq_self_iff.mpr reach
  obtain ⟨-, ends, whole⟩ := moveRelative_whole_iff (deskSession_reachable (raised 5))
    (show lampEditor.host.refusals = [] from rfl) aboveDesk
  obtain ⟨-, notes, succeeds⟩ := ends lampCourse plotted
  refine ⟨succeeds.mpr all, ?_, whole.mpr fun course plotted' => .inr ?_⟩
  · rw [all] at notes
    exact notes
  · cases plotted.symm.trans plotted'
    exact all

/-- Where the transform of the second lamp has no position, the first lamp has been moved when the
move fails. -/
theorem moveRelative_not_whole :
    let session := deskSession (.empty ⟨"Transform"⟩)
    let stopped := (lampEditor.moveRelative aboveDesk).run session
    session.scene.Reachable ∧ stopped.1.isOk = false ∧ stopped.2.notes = [.wrote ⟨1⟩ ⟨1⟩] ∧
    ¬ ∀ (editor : Editor) (session : Session) (params : MoveRelative),
      editor.host.refusals = [] → session.scene.Reachable →
      AllOrNothing session (editor.moveRelative params) := by
  intro session stopped
  have reached : session.scene.Reachable := deskSession_reachable _
  have plotted : ((lampEditor.plot aboveDesk).run session).1 = .ok lampCourse := by
    decide +kernel
  have first : lampCourse.canReach lampEditor session.scene ⟨1⟩ = true := canReach_raised (by rfl)
  have second : lampCourse.canReach lampEditor session.scene ⟨2⟩ = false := by
    decide +kernel
  have one : lampCourse.reached lampEditor session.scene = [⟨1⟩] := by
    refine (List.takeWhile_cons_of_pos first).trans (congrArg _ ?_)
    exact List.takeWhile_cons_of_neg (by rw [second]; decide)
  obtain ⟨-, notes, succeeds⟩ :=
    moveRelative_of_ok (Host.grants_of_plain rfl) reached.wellFormed plotted
  rw [one] at notes succeeds
  have failed : stopped.1.isOk = false := Bool.eq_false_iff.mpr (mt succeeds.mp (by decide))
  refine ⟨reached, failed, notes, fun claimed => ?_⟩
  rcases ran : (lampEditor.moveRelative aboveDesk).run session with ⟨report | entities, after⟩
  · have untold := (claimed lampEditor session aboveDesk rfl reached report after ran).2
    rw [ran] at notes
    cases untold.symm.trans notes
  · rw [show stopped = _ from ran] at failed
    cases failed

end Editor
end SceneEdit
