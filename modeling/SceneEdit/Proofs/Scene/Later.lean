import Mathlib.Data.List.Pairwise
import SceneEdit.Proofs.Scene.Undo

/-!
# Identities are not used again

Identities come from counters that only grow. So what a later scene has under an identity that was
given before has been there all the time: an entity of that identity was an entity before, and a
capability of that identity was attached to the same entity before. Every change of a scene leads to
a later one.
-/

namespace SceneEdit.Scene

variable {base scene changed : Scene} {id : EntityId}

/-- Where capabilities have distinct identities, one identity means one capability of one entity. -/
theorem WellFormed.eq_of_capability (wf : scene.WellFormed) {first second : Entity}
    (member : first ∈ scene.entities) (member' : second ∈ scene.entities)
    {attached attached' : Capability} (has : attached ∈ first.capabilities)
    (has' : attached' ∈ second.capabilities) (same : attached.id = attached'.id) :
    first = second ∧ attached = attached' := by
  obtain ⟨each, apart⟩ := List.nodup_flatMap.mp wf.capabilities_nodup
  have one : first = second := by
    by_contra different
    have : Std.Symm (Function.onFun List.Disjoint
        fun entity : Entity => entity.capabilities.map Capability.id) :=
      ⟨fun _ _ disjoint _ member member' => disjoint member' member⟩
    exact apart.forall member member' different (List.mem_map_of_mem has)
      (same ▸ List.mem_map_of_mem has')
  subst one
  exact ⟨rfl, List.inj_on_of_nodup_map (each first member) has has' same⟩

theorem WellFormed.eq_of_id (wf : scene.WellFormed) {first second : Entity}
    (member : first ∈ scene.entities) (member' : second ∈ scene.entities)
    (same : first.id = second.id) : first = second :=
  List.inj_on_of_nodup_map wf.ids_nodup member member' same

theorem WellFormed.capability_lt (wf : scene.WellFormed) {entity : Entity}
    (member : entity ∈ scene.entities) {attached : Capability}
    (has : attached ∈ entity.capabilities) : attached.id.number < scene.nextCapability :=
  wf.capabilities_lt _ (mem_capabilityIds.mpr ⟨entity, member, attached, has, rfl⟩)

/-- A well-formed scene that has come from another one by any number of changes. -/
structure Later (base scene : Scene) : Prop where
  wellFormed : scene.WellFormed
  nextEntity_le : base.nextEntity ≤ scene.nextEntity
  nextCapability_le : base.nextCapability ≤ scene.nextCapability
  existed : ∀ entity ∈ scene.entities, entity.id.number < base.nextEntity →
    entity.id ∈ base.entities.map Entity.id
  owned : ∀ entity ∈ scene.entities, ∀ attached ∈ entity.capabilities,
    attached.id.number < base.nextCapability →
      ∃ old ∈ base.entities, old.id = entity.id ∧ ∃ was ∈ old.capabilities, was.id = attached.id

namespace Later

theorem refl (wf : scene.WellFormed) : scene.Later scene where
  wellFormed := wf
  nextEntity_le := Int.le_refl _
  nextCapability_le := Int.le_refl _
  existed _ member _ := List.mem_map_of_mem member
  owned entity member attached has _ := ⟨entity, member, rfl, attached, has, rfl⟩

theorem trans {middle : Scene} (first : base.Later middle) (second : middle.Later scene) :
    base.Later scene where
  wellFormed := second.wellFormed
  nextEntity_le := Int.le_trans first.nextEntity_le second.nextEntity_le
  nextCapability_le := Int.le_trans first.nextCapability_le second.nextCapability_le
  existed entity member old := by
    have before := second.existed entity member (Int.lt_of_lt_of_le old first.nextEntity_le)
    obtain ⟨entity', member', same⟩ := List.mem_map.mp before
    rw [← same] at old ⊢
    exact first.existed entity' member' old
  owned entity member attached has old := by
    obtain ⟨entity', member', same, was, had, same'⟩ :=
      second.owned entity member attached has (Int.lt_of_lt_of_le old first.nextCapability_le)
    rw [← same'] at old ⊢
    rw [← same]
    exact first.owned entity' member' was had old

/-- What an entity of a changed scene can be: an old one whose capabilities are old or new, or a new
one with new capabilities. -/
def Comes (scene : Scene) (entity : Entity) : Prop :=
  (∃ old ∈ scene.entities, old.id = entity.id ∧ ∀ attached ∈ entity.capabilities,
    (∃ was ∈ old.capabilities, was.id = attached.id) ∨
      scene.nextCapability ≤ attached.id.number) ∨
  scene.nextEntity ≤ entity.id.number ∧ ∀ attached ∈ entity.capabilities,
    scene.nextCapability ≤ attached.id.number

theorem comes_of_mem {entity : Entity} (member : entity ∈ scene.entities) : Comes scene entity :=
  Or.inl ⟨entity, member, rfl, fun attached has => Or.inl ⟨attached, has, rfl⟩⟩

/-- A change all of whose entities come from the scene. -/
theorem of_comes (wf : changed.WellFormed) (entities : scene.nextEntity ≤ changed.nextEntity)
    (capabilities : scene.nextCapability ≤ changed.nextCapability)
    (comes : ∀ entity ∈ changed.entities, Comes scene entity) : scene.Later changed where
  wellFormed := wf
  nextEntity_le := entities
  nextCapability_le := capabilities
  existed entity member old := by
    rcases comes entity member with ⟨before, inside, same, -⟩ | ⟨new, -⟩
    · exact same ▸ List.mem_map_of_mem inside
    · omega
  owned entity member attached has old := by
    rcases comes entity member with ⟨before, inside, same, each⟩ | ⟨-, each⟩
    · rcases each attached has with had | new
      · exact ⟨before, inside, same, had⟩
      · omega
    · have new := each attached has
      omega

/-- Records change while identities stay, and capabilities are dropped or new. -/
theorem of_modify {change : Entity → Entity} (wf : changed.WellFormed)
    (modified : changed.entities = (scene.modify id change).entities)
    (entities : scene.nextEntity ≤ changed.nextEntity)
    (capabilities : scene.nextCapability ≤ changed.nextCapability)
    (keepsId : ∀ entity, (change entity).id = entity.id)
    (each : ∀ entity, ∀ attached ∈ (change entity).capabilities,
      (∃ was ∈ entity.capabilities, was.id = attached.id) ∨
        scene.nextCapability ≤ attached.id.number) : scene.Later changed := by
  refine of_comes wf entities capabilities fun entity member => ?_
  rw [modified] at member
  obtain ⟨old, inside, rfl⟩ := mem_modify.mp member
  split
  · exact Or.inl ⟨old, inside, (keepsId old).symm, each old⟩
  · exact comes_of_mem inside

end Later

/-! ### Changes lead to later scenes -/

namespace WellFormed

variable (wf : scene.WellFormed)
include wf

theorem later_create {name : String} {parent : Option EntityId}
    (done : scene.create name parent = .ok (id, changed)) : scene.Later changed := by
  have changedWf := wf.create done
  obtain ⟨-, -, rfl⟩ := create_eq_ok_iff.mp done
  refine Later.of_comes changedWf (by dsimp only; omega) (by dsimp only; omega)
    fun entity member => ?_
  rcases List.mem_append.mp member with old | new
  · exact Later.comes_of_mem old
  · obtain rfl := List.mem_singleton.mp new
    refine Or.inr ⟨Int.le_refl _, fun attached has => ?_⟩
    have counted : attached.id ∈ scene.birthCapabilities.map Capability.id :=
      List.mem_map_of_mem has
    rw [map_id_birthCapabilities] at counted
    exact (mem_countedFrom counted).1

theorem later_destroy (done : scene.destroy id = .ok changed) : scene.Later changed := by
  have changedWf := wf.destroy done
  obtain ⟨-, rfl⟩ := destroy_eq_ok_iff.mp done
  exact Later.of_comes changedWf (Int.le_refl _) (Int.le_refl _) fun entity member =>
    Later.comes_of_mem (List.mem_of_mem_filter member)

theorem later_duplicate {name : String} {copy : EntityId}
    (done : scene.duplicate id name = .ok (copy, changed)) : scene.Later changed := by
  have changedWf := wf.duplicate done
  obtain ⟨exist, -, rfl⟩ := duplicate_eq_ok_iff.mp done
  refine Later.of_comes changedWf (by dsimp only; omega) ?_ fun entity member => ?_
  · dsimp only
    rw [foldl_capabilities]
    omega
  · rcases List.mem_append.mp member with old | new
    · exact Later.comes_of_mem old
    · refine Or.inr ⟨?_, fun attached has => ?_⟩
      · obtain ⟨original, inside, same, -⟩ := exists_of_mem_copies new
        have copied := wf.copyOf?_original name inside
        rw [← same] at copied
        exact (copyOf?_eq_some copied).1
      · have counted : attached.id ∈
            (copies (scene.renamed id name) scene.nextCapability (scene.originals id)).flatMap
              (fun copy => copy.capabilities.map Capability.id) :=
          List.mem_flatMap.mpr ⟨entity, new, List.mem_map_of_mem has⟩
        rw [flatMap_copies] at counted
        exact (mem_countedFrom counted).1

theorem later_setParent {parent : Option EntityId}
    (done : scene.setParent id parent = .ok changed) : scene.Later changed := by
  have changedWf := wf.setParent done
  obtain ⟨entity, found, -, rfl⟩ := setParent_eq_ok_iff.mp done
  refine Later.of_comes changedWf (Int.le_refl _) (Int.le_refl _) fun other member => ?_
  rcases mem_moved.mp member with ⟨old, -⟩ | rfl
  · exact Later.comes_of_mem old
  · exact Or.inl ⟨entity, (mem_of_entity? found).1, rfl, fun attached has =>
      Or.inl ⟨attached, has, rfl⟩⟩

theorem later_attach {type : Descriptor} {state : Object} {capability : CapabilityId}
    (done : scene.attach id type state = .ok (capability, changed)) : scene.Later changed := by
  have changedWf := wf.attach done
  obtain ⟨-, -, rfl, rfl⟩ := attach_eq_ok_iff.mp done
  refine Later.of_modify changedWf rfl (Int.le_refl _) (by dsimp only; omega)
    (fun entity => entity.plus_id _) fun entity attached has => ?_
  rcases List.mem_append.mp has with old | new
  · exact Or.inl ⟨attached, old, rfl⟩
  · obtain rfl := List.mem_singleton.mp new
    exact Or.inr (Int.le_refl _)

theorem later_detach {capability : CapabilityId}
    (done : scene.detach id capability = .ok changed) : scene.Later changed := by
  have changedWf := wf.detach done
  obtain ⟨_, _, _, _, _, rfl⟩ := detach_eq_ok_iff.mp done
  exact Later.of_modify changedWf rfl (Int.le_refl _) (Int.le_refl _)
    (fun entity => entity.minus_id capability) fun entity attached has =>
      Or.inl ⟨attached, List.mem_of_mem_filter has, rfl⟩

theorem later_edit (id : EntityId) (edit : RecordEdit) :
    scene.Later (scene.modify id edit.apply) := by
  refine Later.of_modify (wf.edit id edit) rfl (Int.le_refl _) (Int.le_refl _) edit.keeps_id
    fun entity attached has => Or.inl ?_
  have listed : (attached.id, attached.type) ∈ (edit.apply entity).capabilities.map
      fun capability => (capability.id, capability.type) := List.mem_map.mpr ⟨attached, has, rfl⟩
  rw [edit.keeps_capabilities] at listed
  obtain ⟨was, had, same⟩ := List.mem_map.mp listed
  exact ⟨was, had, congrArg Prod.fst same⟩

end WellFormed
end SceneEdit.Scene
