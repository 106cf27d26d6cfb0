import SceneEdit.Proofs.Query.Membership
import SceneEdit.Proofs.Scene.DepthFirst

/-!
# The enumeration of a scene

The enumeration of a scene walks down from every root and leaves out what is not listed at the end.
Without that, the walk below an entity is one block of the walk below anything above it, so that
every entity is followed at once by all that lies below it, and siblings keep the order of the
table. Inactive entities are recognised by walking up, but what they are taken out of is the same
enumeration.
-/

namespace SceneEdit.Scene

variable {scene : Scene} {id : EntityId}

/-- Nothing is left out of the enumeration of all entities. -/
theorem allEntities_true : scene.allEntities true = (scene.childIds none).flatMap scene.subtree :=
  List.filter_eq_self.mpr fun _ _ => rfl

/-- Nothing is left out of all children. -/
theorem children_true : scene.children true id = scene.childIds (some id) :=
  List.filter_eq_self.mpr fun _ _ => rfl

theorem allEntities_false :
    scene.allEntities false = (scene.allEntities true).filter scene.isActive :=
  allEntities_true ▸ rfl

theorem children_false : scene.children false id = (scene.children true id).filter scene.isActive :=
  children_true ▸ rfl

namespace Forest

variable (forest : scene.Forest)
include forest

/-- The subtree of an entity is one block of every subtree that it lies in. -/
theorem subtree_infix_of_below {root : EntityId} (below : scene.Below id root) :
    scene.subtree id <:+: scene.subtree root := by
  induction below with
  | refl => exact List.infix_rfl
  | @tail parent above _ link ih =>
      have block : scene.subtree parent <:+: (scene.childIds (some above)).flatMap scene.subtree :=
        List.infix_flatMap_of_mem (forest.parentOf?_eq_some_iff.mp link) scene.subtree
      rw [forest.subtree_eq above]
      exact ih.trans (block.trans (List.suffix_cons above _).isInfix)

/-- The subtree of an entity is one block of the enumeration. -/
theorem subtree_infix_allEntities (known : id ∈ scene.entities.map Entity.id) :
    scene.subtree id <:+: scene.allEntities true := by
  obtain ⟨root, isRoot, below⟩ := forest.exists_root known
  rw [allEntities_true]
  exact (forest.subtree_infix_of_below below).trans
    (List.infix_flatMap_of_mem isRoot scene.subtree)

/-- After the entity itself, its subtree lists what lies below it. -/
theorem mem_tail_subtree_iff {x : EntityId} :
    x ∈ (scene.subtree id).tail ↔ scene.Below x id ∧ x ≠ id := by
  have split := forest.subtree_eq id
  have once := forest.nodup_subtree id
  rw [split] at once
  rw [← forest.mem_subtree_iff, split, List.tail_cons, List.mem_cons]
  constructor
  · intro inside
    refine ⟨Or.inr inside, ?_⟩
    rintro rfl
    exact (List.nodup_cons.mp once).1 inside
  · rintro ⟨here | inside, proper⟩
    · exact absurd here proper
    · exact inside

theorem mem_allEntities_true_iff :
    id ∈ scene.allEntities true ↔ id ∈ scene.entities.map Entity.id :=
  forest.mem_allEntities_iff.trans (and_iff_left rfl)

theorem perm_allEntities : (scene.allEntities true).Perm (scene.entities.map Entity.id) :=
  (List.perm_ext_iff_of_nodup (forest.nodup_of_depthFirst (forest.depthFirst_allEntities true))
    forest.ids_nodup).mpr fun _ => forest.mem_allEntities_true_iff

/-- Siblings, or roots, are enumerated in the order of the table. -/
theorem childIds_sublist_allEntities (parent : Option EntityId) :
    (scene.childIds parent).Sublist (scene.allEntities true) := by
  refine forest.depthFirst_sublist (forest.depthFirst_childIds parent)
    (forest.depthFirst_allEntities true) fun id member => ?_
  obtain ⟨entity, inside, rfl, -⟩ := mem_childIds.mp member
  exact forest.mem_allEntities_true_iff.mpr (List.mem_map_of_mem inside)

end Forest

/-- In every reachable scene the enumeration has every entity once; every entity is followed by a
block of all that lies below it; and siblings, or roots, stand in the order of the table. Without
inactive entities the enumeration is a part of that, and so are the children of an entity a part of
all its children: those that are active together with everything above them. -/
theorem enumeration_by_subtrees (reached : scene.Reachable) :
    (scene.allEntities true).Perm (scene.entities.map Entity.id) ∧
      (scene.allEntities true).Nodup ∧
      (∀ id ∈ scene.entities.map Entity.id, ∃ before descendants after,
        scene.allEntities true = before ++ id :: (descendants ++ after) ∧
          ∀ x, x ∈ descendants ↔ scene.Below x id ∧ x ≠ id) ∧
      (∀ parent, (scene.childIds parent).Sublist (scene.allEntities true)) ∧
      (∀ id, scene.children true id = scene.childIds (some id)) ∧
      ∃ active : EntityId → Bool,
        (∀ id, active id = true ↔ ∀ above, scene.Below id above →
          ∃ entity, scene.entity? above = some entity ∧ entity.active = true) ∧
        scene.allEntities false = (scene.allEntities true).filter active ∧
        ∀ id, scene.children false id = (scene.children true id).filter active := by
  have forest := reached.wellFormed.toForest
  refine ⟨forest.perm_allEntities, forest.perm_allEntities.nodup_iff.mpr forest.ids_nodup, ?_,
    forest.childIds_sublist_allEntities, fun _ => children_true, scene.isActive,
    fun _ => forest.isActive_iff, allEntities_false, fun _ => children_false⟩
  intro id known
  obtain ⟨before, after, split⟩ := forest.subtree_infix_allEntities known
  have first : scene.subtree id = id :: (scene.subtree id).tail := by
    rw [forest.subtree_eq id, List.tail_cons]
  refine ⟨before, (scene.subtree id).tail, after, ?_, fun x => forest.mem_tail_subtree_iff⟩
  rw [← split, List.append_assoc]
  exact congrArg (fun block => before ++ (block ++ after)) first

/-- A shelf that is moved behind its sister in a room, and then switched off with all that stands
on it. -/
theorem enumeration_by_subtrees_of_shelf :
    let room := ({} : Scene).after (.create "Room" none)
    let shelf := (room.after (.create "Shelf" (some ⟨1⟩))).after (.create "Lamp" (some ⟨2⟩))
    let box := (shelf.after (.create "Box" (some ⟨1⟩))).after (.setParent ⟨2⟩ (some ⟨1⟩))
    let scene := box.after (.edit ⟨2⟩ (.ofRecordChange { active := some false }))
    scene.allEntities true = [⟨1⟩, ⟨4⟩, ⟨2⟩, ⟨3⟩] ∧ scene.allEntities false = [⟨1⟩, ⟨4⟩] ∧
      (scene.childIds (some ⟨1⟩)).Sublist (scene.allEntities true) := by
  intro room shelf box scene
  have reached : scene.Reachable :=
    ((((((Reachable.fresh _ _).step _).step _).step _).step _).step _).step _
  exact ⟨by decide, by decide, (enumeration_by_subtrees reached).2.2.2.1 (some ⟨1⟩)⟩

end SceneEdit.Scene
