import SceneEdit.Proofs.Session.Account

/-!
# Deleting

A deletion goes through its targets and passes over those that have gone with an earlier one.
Targets come from the top down, so a target has gone exactly if it lies below an earlier one, and no
target takes anything away that a later one should. After some targets the scene is the one at the
start without their subtrees (`Scene.without`); one more target adds its subtree to what is taken
away, or lies in it.
-/

namespace SceneEdit

namespace Scene

/-- Whether nothing above an entity is one of some entities. -/
def isUppermost (scene : Scene) (ids : List EntityId) (id : EntityId) : Bool :=
  (scene.lineage id).tail.all fun above => above ∉ ids

/-- The scene without some entities and what lies below them. -/
def without (scene : Scene) (roots : List EntityId) : Scene :=
  { scene with
    entities := scene.entities.filter fun entity => entity.id ∉ roots.flatMap scene.subtree }

variable {base : Scene} {roots ids : List EntityId} {id : EntityId}

@[simp] theorem without_nil (scene : Scene) : scene.without [] = scene := by
  simp [without]

namespace Forest

variable (forest : base.Forest)
include forest

theorem mem_tail_lineage_iff {above : EntityId} :
    above ∈ (base.lineage id).tail ↔ base.Below id above ∧ above ≠ id := by
  rw [forest.lineage_eq, List.tail_cons]
  cases link : base.parentOf? id with
  | none =>
      simp only [Option.map_none, Option.getD_none, List.not_mem_nil, false_iff, not_and, not_not]
      exact fun below => (reflTransGen_iff_of_root link).mp below
  | some parent =>
      rw [Option.map_some, Option.getD_some, forest.mem_lineage_iff, below_iff_of_parent link]
      constructor
      · intro up
        refine ⟨Or.inr up, ?_⟩
        rintro rfl
        exact forest.not_below_child link up
      · rintro ⟨same | up, proper⟩
        · exact absurd same.symm proper
        · exact up

theorem isUppermost_iff :
    base.isUppermost ids id = true ↔ ∀ above ∈ ids, base.Below id above → above = id := by
  simp only [isUppermost, List.all_eq_true, forest.mem_tail_lineage_iff, decide_eq_true_eq]
  constructor
  · intro none above listed below
    by_contra proper
    exact none above ⟨below, proper⟩ listed
  · rintro only above ⟨below, proper⟩ listed
    exact proper (only above listed below)

/-- From the top down, what is uppermost among some entities lies below none that comes before. -/
theorem isUppermost_append_iff {passed rest : List EntityId}
    (distinct : (passed ++ id :: rest).Nodup) (topDown : base.TopDown (passed ++ id :: rest)) :
    base.isUppermost (passed ++ id :: rest) id = true ↔
      ∀ root ∈ passed, ¬ base.Below id root := by
  obtain ⟨-, tail, -⟩ := List.pairwise_append.mp topDown
  obtain ⟨first, -⟩ := List.pairwise_cons.mp tail
  rw [forest.isUppermost_iff]
  constructor
  · intro only root before below
    have same := only root (List.mem_append_left _ before) below
    exact (List.nodup_append.mp distinct).2.2 root before id List.mem_cons_self same
  · intro outside above member below
    obtain before | after := List.mem_append.mp member
    · exact absurd below (outside above before)
    · obtain same | later := List.mem_cons.mp after
      · exact same
      · exact (first above later below).symm

theorem mem_flatMap_subtree_iff {x : EntityId} :
    x ∈ roots.flatMap base.subtree ↔ ∃ root ∈ roots, base.Below x root := by
  simp only [List.mem_flatMap, forest.mem_subtree_iff]

theorem mem_without_iff {entity : Entity} :
    entity ∈ (base.without roots).entities ↔
      entity ∈ base.entities ∧ ∀ root ∈ roots, ¬ base.Below entity.id root := by
  simp [without, forest.mem_flatMap_subtree_iff, -List.mem_flatMap]

theorem mem_ids_without_iff (known : id ∈ base.entities.map Entity.id) :
    id ∈ (base.without roots).entities.map Entity.id ↔ ∀ root ∈ roots, ¬ base.Below id root := by
  obtain ⟨entity, member, rfl⟩ := List.mem_map.mp known
  constructor
  · intro left
    obtain ⟨other, inside, same⟩ := List.mem_map.mp left
    rw [← same]
    exact (forest.mem_without_iff.mp inside).2
  · exact fun outside => List.mem_map_of_mem (forest.mem_without_iff.mpr ⟨member, outside⟩)

/-- What lies below something that was taken away has gone with it. -/
theorem without_append_of_below {root : EntityId} (taken : root ∈ roots)
    (below : base.Below id root) : base.without (roots ++ [id]) = base.without roots := by
  have same : ∀ x, x ∈ (roots ++ [id]).flatMap base.subtree ↔ x ∈ roots.flatMap base.subtree := by
    intro x
    rw [List.flatMap_append, List.mem_append, or_iff_left_iff_imp, List.flatMap_singleton,
      forest.mem_subtree_iff, forest.mem_flatMap_subtree_iff]
    exact fun under => ⟨root, taken, under.trans below⟩
  simp only [without, same]

end Forest

/-- Destroying one more entity. -/
theorem destroy_without (wf : base.WellFormed) (left : (base.without roots).WellFormed)
    (known : id ∈ (base.without roots).entities.map Entity.id) :
    (base.without roots).destroy id = .ok (base.without (roots ++ [id])) := by
  have subset : (base.without roots).entities ⊆ base.entities := List.filter_subset_self _
  have doomed : ∀ entity ∈ (base.without roots).entities,
      (entity.id ∈ (base.without roots).subtree id ↔ entity.id ∈ base.subtree id) := by
    intro entity member
    rw [left.mem_subtree_iff, below_iff_of_subset wf left subset member, wf.mem_subtree_iff]
  have table : (base.without (roots ++ [id])).entities = (base.without roots).entities.filter
      fun entity => !((base.without roots).subtree id).contains entity.id := by
    have both : (base.without (roots ++ [id])).entities =
        (base.without roots).entities.filter fun entity => entity.id ∉ base.subtree id := by
      simp only [without, List.flatMap_append, List.flatMap_singleton, List.mem_append, not_or,
        List.filter_filter, Bool.decide_and, Bool.and_comm]
    rw [both]
    refine List.filter_congr fun entity member => ?_
    simp [doomed entity member]
  exact destroy_eq_ok_iff.mpr ⟨known, congrArg (fun entities => { base with entities }) table⟩

end Scene

namespace Editor

open Edit

variable {editor : Editor} {base : Scene} {session : Session}

/-- The targets `passed` have been gone through, and the targets `ids` are still to come. -/
theorem destroyEach_without (wf : base.WellFormed) (plain : editor.host.refusals = [])
    {targets passed ids : List EntityId} (whole : passed ++ ids = targets)
    (known : targets ⊆ base.entities.map Entity.id) (distinct : targets.Nodup)
    (topDown : base.TopDown targets) (here : session.scene = base.without passed)
    (left : (base.without passed).WellFormed) :
    WP (editor.destroyEach ids)
      (fun deleted after => deleted = ids.filter (base.isUppermost targets) ∧
        after.scene = base.without targets ∧
        after.notes = session.notes ++ deleted.map Note.destroyed)
      (fun _ _ => False) session := by
  induction ids generalizing session passed with
  | nil =>
      rw [List.append_nil] at whole
      subst whole
      exact WP.pure_iff.mpr ⟨rfl, here, (List.append_nil _).symm⟩
  | cons id rest ih =>
      subst whole
      have next : passed ++ [id] ++ rest = passed ++ id :: rest := List.append_assoc ..
      have upper := wf.isUppermost_append_iff distinct topDown
      have present : id ∈ (base.without passed).entities.map Entity.id ↔ _ :=
        wf.mem_ids_without_iff (known (List.mem_append_right _ List.mem_cons_self))
      rw [destroyEach]
      refine WP.bind_iff.mpr (WP.scene_iff.mpr ?_)
      rw [(Host.grants_of_plain plain .viewEntity).entity?, here]
      split
      · rename_i gone
        rw [Option.isNone_iff_eq_none, Scene.entity?_eq_none_iff, present] at gone
        rw [List.filter_cons_of_neg (mt upper.mp gone)]
        push Not at gone
        obtain ⟨root, before, below⟩ := gone
        have same := wf.without_append_of_below before below
        exact ih next (here.trans same.symm) (same ▸ left)
      · rename_i there
        rw [Option.isNone_iff_eq_none, Scene.entity?_eq_none_iff, not_not] at there
        rw [List.filter_cons_of_pos (upper.mpr (present.mp there))]
        have destroyed := Scene.destroy_without wf left there
        have asked : (editor.destroyRequest id session.scene).result =
            .ok ((), base.without (passed ++ [id])) := by
          rw [here]
          exact destroyRequest_eq_ok_iff.mpr
            ⟨(Host.grants_of_plain plain .destroyEntity).refuses _ _, destroyed⟩
        refine WP.bind_iff.mpr (WP.require_iff.mpr ?_)
        rw [asked]
        refine WP.bind_iff.mpr (WP.note_iff.mpr (WP.bind_iff.mpr (WP.tell_iff.mpr ?_)))
        refine WP.bind_iff.mpr ((ih next rfl (left.destroy destroyed)).mono ?_ fun _ _ h => h)
        rintro deleted after ⟨rfl, scene, notes⟩
        refine WP.pure_iff.mpr ⟨rfl, scene, ?_⟩
        rw [notes]
        simp [Session.log]

/-- A deletion succeeds once its targets are found. It destroys, in the order of the targets, those
that lie below no other target, and sends one note for each of them. What is left of the scene is
all that is neither a target nor below one, as it was and in the same order. -/
theorem delete_once {editor : Editor} (plain : editor.host.refusals = []) {session : Session}
    (reached : session.scene.Reachable) (query : Query) {targets : List EntityId}
    {searched : Session} (found : (editor.targets query).run session = (.ok targets, searched)) :
    ∃ deleted after, (editor.delete query).run session = (.ok deleted, after) ∧
      deleted = targets.filter (session.scene.isUppermost targets) ∧
      after.scene = session.scene.without targets ∧
      after.notes = session.notes ++ deleted.map Note.destroyed := by
  have wf := reached.wellFormed
  obtain ⟨scene, notes⟩ := (editor.targets_keeps query
    (P := fun scene notes => scene = session.scene ∧ notes = session.notes) session
    ⟨rfl, rfl⟩).ok found
  obtain ⟨distinct, known⟩ := (targets_finds _ query session rfl).ok found
  have topDown := (targets_of_find (fun cache => editor.host.find_topDown wf.toForest cache query)
    session rfl).ok found
  have whole : WP (editor.destroyEach targets) _ _ searched :=
    destroyEach_without wf plain (List.nil_append targets) known distinct topDown
      (by rw [scene, Scene.without_nil]) (by rwa [Scene.without_nil])
  obtain ⟨deleted, after, run, outcome⟩ := whole.exists_ok
  rw [notes] at outcome
  exact ⟨deleted, after, by rw [delete, run_bind, found]; exact run, outcome⟩

/-- A lamp on a lamp and a lamp on a desk: the second lamp goes with the first one. -/
theorem delete_once_of_lamps :
    let lamps := (({} : Scene).after (.create "Lamp" none)).after (.create "Lamp" (some ⟨1⟩))
    let scene := (lamps.after (.create "Desk" none)).after (.create "Lamp" (some ⟨3⟩))
    let query : Query := ⟨"Lamp", .byName, none, false, true⟩
    ((({} : Editor).targets query).run { scene }).1 = .ok [⟨1⟩, ⟨2⟩, ⟨4⟩] ∧
      ∃ after, (({} : Editor).delete query).run { scene } = (.ok [⟨1⟩, ⟨4⟩], after) ∧
        after.scene.entities.map Entity.id = [⟨3⟩] ∧
        after.notes = [.destroyed ⟨1⟩, .destroyed ⟨4⟩] := by
  intro lamps scene query
  have reached : scene.Reachable :=
    ((((Scene.Reachable.fresh _ _).step _).step _).step _).step _
  have outcome : ((({} : Editor).targets query).run { scene }).1 = .ok [⟨1⟩, ⟨2⟩, ⟨4⟩] := by
    decide +kernel
  have found : (({} : Editor).targets query).run { scene } = (.ok [⟨1⟩, ⟨2⟩, ⟨4⟩], _) :=
    Prod.ext outcome rfl
  obtain ⟨deleted, after, run, listed, left, notes⟩ :=
    @delete_once {} rfl { scene } reached query _ _ found
  have upper : [⟨1⟩, ⟨2⟩, ⟨4⟩].filter (scene.isUppermost [⟨1⟩, ⟨2⟩, ⟨4⟩]) = [⟨1⟩, ⟨4⟩] := by decide
  obtain rfl : deleted = [⟨1⟩, ⟨4⟩] := listed.trans upper
  refine ⟨outcome, after, run, ?_, notes⟩
  rw [left]
  decide

end Editor
end SceneEdit
