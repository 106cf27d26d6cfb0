import SceneEdit.Proofs.Scene.DepthFirst
import SceneEdit.Proofs.Scene.Undo
import SceneEdit.Proofs.Session.Reachable

/-!
# Copies of subtrees

A copy is made flat: the entities of a subtree are numbered in the order of a walk, and their copies
are put at the end of the table in that order, each below the copy of its parent. The children of a
copy are then the copies of the children, in the same order (`childIds_counterpart`), since both
follow the depth-first order. So a walk down the copy is the copy of the walk down the original
(`subtree_counterpart`).
-/

namespace SceneEdit

/-- What a copy has in common with its original; the identities of capabilities are its own. -/
structure Entity.Mirrors (copy original : Entity) : Prop where
  tag : copy.tag = original.tag
  layer : copy.layer = original.layer
  active : copy.active = original.active
  capabilities : copy.capabilities.map (fun capability => (capability.type, capability.state)) =
    original.capabilities.map fun capability => (capability.type, capability.state)

namespace Scene

/-- Two entities have the same place in two lists. -/
def SamePlace (ids ids' : List EntityId) (x y : EntityId) : Prop :=
  ∃ place : Nat, ids[place]? = some x ∧ ids'[place]? = some y

theorem samePlace_map_iff {ids : List EntityId} {f : EntityId → EntityId} {x y : EntityId} :
    SamePlace ids (ids.map f) x y ↔ x ∈ ids ∧ f x = y := by
  constructor
  · rintro ⟨place, here, there⟩
    rw [List.getElem?_map, here, Option.map_some, Option.some.injEq] at there
    exact ⟨List.mem_of_getElem? here, there⟩
  · rintro ⟨member, rfl⟩
    obtain ⟨place, here⟩ := List.getElem?_of_mem member
    exact ⟨place, here, by rw [List.getElem?_map, here, Option.map_some]⟩

/-- The subtree of one scene is a copy of the subtree of another one, place by place. The root of
the copy has its own name and the parent of the original. -/
structure CopiesSubtree (scene : Scene) (id : EntityId) (name : String) (changed : Scene)
    (root : EntityId) : Prop where
  length : (changed.subtree root).length = (scene.subtree id).length
  records : ∀ x y, SamePlace (scene.subtree id) (changed.subtree root) x y →
    ∃ original copy, scene.entity? x = some original ∧ changed.entity? y = some copy ∧
      copy.Mirrors original ∧ copy.name = if x = id then name else original.name
  parents : ∀ x y, SamePlace (scene.subtree id) (changed.subtree root) x y →
    if x = id then changed.parentOf? y = scene.parentOf? x
    else ∃ above above', scene.parentOf? x = some above ∧ changed.parentOf? y = some above' ∧
      SamePlace (scene.subtree id) (changed.subtree root) above above'

/-- A walk down an image of a hierarchy is the image of the walk. -/
theorem walk_map {children children' : EntityId → List EntityId} {f : EntityId → EntityId}
    {inside : EntityId → Prop}
    (closed : ∀ x, inside x → ∀ child ∈ children x, inside child)
    (image : ∀ x, inside x → children' (f x) = (children x).map f) (bound : Nat) {x : EntityId}
    (start : inside x) : walk children' bound (f x) = (walk children bound x).map f := by
  induction bound generalizing x with
  | zero => rfl
  | succ bound ih =>
      rw [walk, walk, List.map_cons, image x start, List.flatMap_map, List.map_flatMap]
      congr 1
      apply List.flatMap_congr
      intro child member
      exact ih (closed x start child member)

/-- The copy of an entity of a subtree, numbered by its place there. -/
def counterpart (scene : Scene) (id x : EntityId) : EntityId :=
  ⟨scene.nextEntity + ((scene.subtree id).idxOf x : Nat)⟩

/-- The copies with some parent are those that renaming puts below it. -/
theorem childIds_copies (rename : Entity → Entity) (next : Int) (entities : List Entity)
    (parent : Option EntityId) :
    ((copies rename next entities).filter fun copy => copy.parent = parent).map Entity.id =
      (entities.filter fun entity => (rename entity).parent = parent).map
        fun entity => (rename entity).id := by
  induction entities generalizing next with
  | nil => rfl
  | cons entity rest ih =>
      rw [copies, List.filter_cons, List.filter_cons]
      split
      · rw [List.map_cons, List.map_cons, ih]
      · exact ih _

variable {scene changed : Scene} {id x y : EntityId}

theorem counterpart_inj (below : x ∈ scene.subtree id) :
    scene.counterpart id x = scene.counterpart id y ↔ x = y := by
  rw [counterpart, counterpart, EntityId.mk.injEq, ← List.idxOf_inj below]
  omega

theorem copyOf?_eq_counterpart (below : x ∈ scene.subtree id) :
    copyOf? (scene.subtree id) scene.nextEntity x = some (scene.counterpart id x) := by
  have place : (scene.subtree id).idxOf? x = some ((scene.subtree id).idxOf x) :=
    List.findIdx?_eq_some_iff_findIdx_eq.mpr ⟨List.idxOf_lt_length_of_mem below, rfl⟩
  rw [copyOf?, place]
  rfl

theorem next_le_counterpart (scene : Scene) (id x : EntityId) :
    scene.nextEntity ≤ (scene.counterpart id x).number := by
  rw [counterpart]
  dsimp only
  omega

namespace WellFormed

variable (wf : scene.WellFormed) (exist : id ∈ scene.entities.map Entity.id)
include wf

theorem id_renamed (name : String) {entity : Entity} (member : entity ∈ scene.originals id) :
    (scene.renamed id name entity).id = scene.counterpart id entity.id := by
  have copied := wf.copyOf?_original name member
  rw [copyOf?_eq_counterpart (wf.mem_originals.mp member).2] at copied
  exact (Option.some.inj copied).symm

theorem counterpart_root (id : EntityId) : scene.counterpart id id = ⟨scene.nextEntity⟩ := by
  have first := AddsSubtree.copyOf?_root wf id
  rw [copyOf?_eq_counterpart (wf.mem_subtree_iff.mpr .refl)] at first
  exact Option.some.inj first

/-- The copy of an entity is put below the copy of its parent. -/
theorem parent_renamed_eq_iff (name : String) {entity : Entity}
    (member : entity ∈ scene.originals id) (below : x ∈ scene.subtree id) :
    (scene.renamed id name entity).parent = some (scene.counterpart id x) ↔
      entity.parent = some x := by
  obtain ⟨known, -⟩ := wf.mem_originals.mp member
  rw [renamed]
  dsimp only
  split
  · -- The first copy keeps the parent of its original, which is outside the subtree.
    rename_i here
    constructor
    · intro up
      have := wf.parent_lt known up
      have := scene.next_le_counterpart id x
      omega
    · intro up
      have link := wf.parentOf?_eq_some_iff.mpr (mem_childIds.mpr ⟨entity, known, here, up⟩)
      exact absurd (wf.mem_subtree_iff.mp below) (wf.not_below_child link)
  · rw [Option.bind_eq_some_iff]
    constructor
    · rintro ⟨parent, up, given⟩
      have inside := List.mem_of_getElem? (copyOf?_eq_some given).2.2
      rw [copyOf?_eq_counterpart inside, Option.some.injEq, counterpart_inj inside] at given
      rw [up, given]
    · exact fun up => ⟨x, up, copyOf?_eq_counterpart below⟩

include exist in
/-- Among the entities of the subtree those with some parent are its children, in their order. -/
theorem map_id_filter_originals (below : x ∈ scene.subtree id) :
    ((scene.originals id).filter fun entity => entity.parent = some x).map Entity.id =
      scene.childIds (some x) := by
  have part : (((scene.originals id).filter fun entity => entity.parent = some x).map
      Entity.id).Sublist (scene.subtree id) := by
    rw [← wf.map_id_originals exist]
    exact List.filter_sublist.map Entity.id
  refine wf.depthFirst_unique ((wf.depthFirst_subtree id).sublist part)
    (wf.depthFirst_childIds (some x)) fun child => ?_
  simp only [List.mem_map, List.mem_filter, wf.mem_originals, mem_childIds, decide_eq_true_eq]
  constructor
  · rintro ⟨entity, ⟨⟨known, -⟩, up⟩, rfl⟩
    exact ⟨entity, known, rfl, up⟩
  · rintro ⟨entity, known, rfl, up⟩
    have link := wf.parentOf?_eq_some_iff.mpr (mem_childIds.mpr ⟨entity, known, rfl, up⟩)
    have within : scene.Below entity.id id := (wf.mem_subtree_iff.mp below).head link
    exact ⟨entity, ⟨⟨known, wf.mem_subtree_iff.mpr within⟩, up⟩, rfl⟩

section

variable {name : String} (appended : changed.entities = scene.entities ++
  copies (scene.renamed id name) scene.nextCapability (scene.originals id))
include appended

include exist in
/-- The children of a copy are the copies of the children. -/
theorem childIds_counterpart (below : x ∈ scene.subtree id) :
    changed.childIds (some (scene.counterpart id x)) =
      (scene.childIds (some x)).map (scene.counterpart id) := by
  have old : scene.entities.filter
      (fun entity => entity.parent = some (scene.counterpart id x)) = [] := by
    refine List.filter_eq_nil_iff.mpr fun entity member up => ?_
    have := wf.parent_lt member (of_decide_eq_true up)
    have := scene.next_le_counterpart id x
    omega
  have links : (scene.originals id).filter
      (fun entity => (scene.renamed id name entity).parent = some (scene.counterpart id x)) =
      (scene.originals id).filter fun entity => entity.parent = some x :=
    List.filter_congr fun entity member =>
      decide_eq_decide.mpr (wf.parent_renamed_eq_iff name member below)
  rw [childIds, appended, List.filter_append, old, List.nil_append, childIds_copies, links,
    ← wf.map_id_filter_originals exist below, List.map_map]
  exact List.map_congr_left fun entity member =>
    wf.id_renamed name (List.mem_of_mem_filter member)

include exist in
/-- A walk down the copy is the copy of the walk down the original. -/
theorem subtree_counterpart :
    changed.subtree ⟨scene.nextEntity⟩ = (scene.subtree id).map (scene.counterpart id) := by
  have enough : scene.entities.length ≤ changed.entities.length := by
    rw [appended, List.length_append]
    omega
  rw [← wf.walk_eq_subtree enough, ← wf.counterpart_root id, subtree]
  refine walk_map (fun x (below : x ∈ scene.subtree id) child member => ?_)
    (fun x below => wf.childIds_counterpart exist appended below) _ (wf.mem_subtree_iff.mpr .refl)
  have link := wf.parentOf?_eq_some_iff.mpr member
  exact wf.mem_subtree_iff.mpr ((wf.mem_subtree_iff.mp below).head link)

/-- The record of a copy. -/
theorem entity?_counterpart (changedWf : changed.WellFormed) {entity : Entity}
    (member : entity ∈ scene.originals id) :
    ∃ copy, changed.entity? (scene.counterpart id entity.id) = some copy ∧
      copy.Mirrors entity ∧ copy.name = (scene.renamed id name entity).name ∧
      copy.parent = (scene.renamed id name entity).parent := by
  obtain ⟨first, inside⟩ :=
    exists_mem_copies (scene.renamed id name) scene.nextCapability member
  have stands := List.mem_append_right scene.entities inside
  rw [← appended] at stands
  exact ⟨_, (entity?_eq_some_iff changedWf.ids_nodup).mpr ⟨stands, wf.id_renamed name member⟩,
    ⟨rfl, rfl, rfl, map_renumber _ (fun _ _ => rfl) first entity.capabilities⟩, rfl, rfl⟩

include exist in
theorem copiesSubtree (changedWf : changed.WellFormed) :
    scene.CopiesSubtree id name changed ⟨scene.nextEntity⟩ := by
  have walked := wf.subtree_counterpart exist appended
  have record : ∀ x, x ∈ scene.subtree id → ∃ entity, scene.entity? x = some entity ∧
      entity ∈ scene.originals id ∧ entity.id = x := by
    intro x below
    rw [← wf.map_id_originals exist] at below
    obtain ⟨entity, member, rfl⟩ := List.mem_map.mp below
    exact ⟨entity, (entity?_eq_some_iff wf.ids_nodup).mpr ⟨(wf.mem_originals.mp member).1, rfl⟩,
      member, rfl⟩
  constructor
  · rw [walked, List.length_map]
  · intro x y place
    rw [walked] at place
    obtain ⟨below, rfl⟩ := samePlace_map_iff.mp place
    obtain ⟨entity, found, member, rfl⟩ := record x below
    obtain ⟨copy, copied, mirrors, named, -⟩ := wf.entity?_counterpart appended changedWf member
    exact ⟨entity, copy, found, copied, mirrors, named⟩
  · intro x y place
    rw [walked] at place ⊢
    obtain ⟨below, rfl⟩ := samePlace_map_iff.mp place
    obtain ⟨entity, found, member, rfl⟩ := record x below
    obtain ⟨copy, copied, -, -, up⟩ := wf.entity?_counterpart appended changedWf member
    rw [parentOf?, copied, Option.bind_some, up]
    split
    · rename_i here
      rw [parentOf?, found, Option.bind_some, renamed]
      exact if_pos here
    · rename_i elsewhere
      obtain same | ⟨above, link, within⟩ :=
        Relation.ReflTransGen.cases_head (wf.mem_subtree_iff.mp below)
      · exact absurd same elsewhere
      · have inside := wf.mem_subtree_iff.mpr within
        have parent : entity.parent = some above := by
          rwa [parentOf?, found, Option.bind_some] at link
        exact ⟨above, scene.counterpart id above, link,
          (wf.parent_renamed_eq_iff name member inside).mpr parent,
          samePlace_map_iff.mpr ⟨inside, rfl⟩⟩

end

end WellFormed

/-- Copying an existing entity succeeds. The old entities stay as they are, in the same order, and
what is new comes after them, with identities that are new throughout, capabilities included. What
is new is the subtree of the copy, in the order of a walk, and it is a copy of the subtree place by
place. Destroying the copy leads back to the table there was. -/
theorem duplicate_faithful {scene : Scene} (reached : scene.Reachable) {id : EntityId}
    (known : id ∈ scene.entities.map Entity.id) (name : String) :
    ∃ root changed made, scene.duplicate id name = .ok (root, changed) ∧
      changed.entities = scene.entities ++ made ∧
      (∀ entity ∈ made, entity.id ∉ scene.entities.map Entity.id ∧
        ∀ capability ∈ entity.capabilities, capability.id ∉ scene.capabilityIds) ∧
      (changed.entities.map Entity.id).Nodup ∧ changed.capabilityIds.Nodup ∧
      changed.subtree root = made.map Entity.id ∧
      scene.CopiesSubtree id name changed root ∧
      ∃ restored, changed.destroy root = .ok restored ∧ restored.entities = scene.entities := by
  have wf := reached.wellFormed
  obtain ⟨⟨root, changed⟩, done⟩ : ∃ answer, scene.duplicate id name = .ok answer :=
    ⟨_, duplicate_eq_ok_iff.mpr ⟨known, rfl, rfl⟩⟩
  have changedWf := wf.duplicate done
  obtain ⟨restored, destroyed, agrees⟩ := (AddsSubtree.duplicate wf done).destroy
  obtain ⟨-, rfl, whole⟩ := duplicate_eq_ok_iff.mp done
  have appended := congrArg Scene.entities whole
  refine ⟨_, changed, _, done, appended, fun entity member => ⟨?_, fun capability has => ?_⟩,
    changedWf.ids_nodup, changedWf.capabilities_nodup, ?_,
    wf.copiesSubtree known appended changedWf, restored, destroyed, agrees.entities⟩
  · have distinct := changedWf.ids_nodup
    rw [appended, List.map_append] at distinct
    exact fun old => List.disjoint_of_nodup_append distinct old (List.mem_map_of_mem member)
  · have distinct := changedWf.capabilities_nodup
    rw [capabilityIds, appended, List.flatMap_append] at distinct
    exact fun old => List.disjoint_of_nodup_append distinct old
      (List.mem_flatMap.mpr ⟨entity, member, List.mem_map_of_mem has⟩)
  · rw [wf.subtree_counterpart known appended, map_id_copies, ← wf.map_id_originals known,
      List.map_map]
    exact (List.map_congr_left fun entity member => wf.id_renamed name member).symm

/-- A desk, with a lamp that was moved onto it and a bulb in the lamp: the table has the bulb before
the desk and the desk before the lamp. -/
theorem duplicate_faithful_of_desk :
    let lamp := (({} : Scene).after (.create "Lamp" none)).after (.create "Bulb" (some ⟨1⟩))
    let scene := (lamp.after (.create "Desk" none)).after (.setParent ⟨1⟩ (some ⟨3⟩))
    scene.entities.map Entity.id = [⟨2⟩, ⟨3⟩, ⟨1⟩] ∧ scene.subtree ⟨3⟩ = [⟨3⟩, ⟨1⟩, ⟨2⟩] ∧
      ∃ root changed restored, scene.duplicate ⟨3⟩ "Copy" = .ok (root, changed) ∧
        scene.CopiesSubtree ⟨3⟩ "Copy" changed root ∧ changed.destroy root = .ok restored ∧
        restored.entities = scene.entities := by
  intro lamp scene
  have reached : scene.Reachable :=
    ((((Reachable.fresh _ _).step _).step _).step _).step _
  obtain ⟨root, changed, -, done, -, -, -, -, -, copied, restored, destroyed, same⟩ :=
    duplicate_faithful reached (by decide : (⟨3⟩ : EntityId) ∈ scene.entities.map Entity.id) "Copy"
  exact ⟨by decide, by decide, root, changed, restored, done, copied, destroyed, same⟩

end Scene
end SceneEdit
