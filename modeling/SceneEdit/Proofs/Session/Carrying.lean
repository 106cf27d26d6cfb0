import SceneEdit.Proofs.Session.Ledger

/-!
# What changes of one entity leave alone

An entity keeps its capabilities through every change but detaching them, and other entities keep
all they have. `OnlyAt base ids scene` says the latter of changes at some entities; whoever does not
lie below one of them in the former scene does not lie below one of them in the latter.
-/

namespace SceneEdit.Scene

variable {base scene changed : Scene} {id : EntityId} {type : Descriptor}
variable {pair : EntityId × CapabilityId}

/-! ### Capabilities that stay -/

theorem WellFormed.carries_iff (wf : scene.WellFormed) :
    scene.Carries type pair ↔ ∃ entity ∈ scene.entities, entity.id = pair.1 ∧
      ∃ attached ∈ entity.capabilities, attached.id = pair.2 ∧
        attached.type.fullName = type.fullName := by
  constructor
  · rintro ⟨entity, attached, found, here, same⟩
    obtain ⟨member, sameId⟩ := mem_of_entity? found
    obtain ⟨has, sameCapability⟩ := Entity.mem_of_attached? here
    exact ⟨entity, member, sameId, attached, has, sameCapability, same⟩
  · rintro ⟨entity, member, sameId, attached, has, sameCapability, same⟩
    obtain ⟨other, here⟩ := Entity.exists_attached? has
    obtain ⟨hasOther, sameOther⟩ := Entity.mem_of_attached? here
    obtain ⟨-, rfl⟩ := wf.eq_of_capability member member hasOther has sameOther
    rw [sameCapability] at here
    exact ⟨entity, other, (entity?_eq_some_iff wf.ids_nodup).mpr ⟨member, sameId⟩, here, same⟩

namespace Carries

theorem congr {other : Descriptor} (carried : scene.Carries type pair)
    (same : type.fullName = other.fullName) : scene.Carries other pair := by
  obtain ⟨entity, attached, found, here, named⟩ := carried
  exact ⟨entity, attached, found, here, named.trans same⟩

/-- What an entity has depends on the entity alone. -/
theorem of_entity? (carried : base.Carries type pair)
    (same : scene.entity? pair.1 = base.entity? pair.1) : scene.Carries type pair := by
  obtain ⟨entity, attached, found, here, named⟩ := carried
  exact ⟨entity, attached, same.trans found, here, named⟩

theorem lt (carried : scene.Carries type pair) (wf : scene.WellFormed) :
    pair.2.number < scene.nextCapability := by
  obtain ⟨entity, attached, found, here, -⟩ := carried
  obtain ⟨has, same⟩ := Entity.mem_of_attached? here
  exact same ▸ wf.capability_lt (mem_of_entity? found).1 has

theorem adds {added : List (EntityId × CapabilityId)} (carried : base.Carries type pair)
    (wf : base.WellFormed) (adds : base.AddsCapabilities added scene) :
    scene.Carries type pair := by
  obtain ⟨entity, member, sameId, attached, has, same⟩ := wf.carries_iff.mp carried
  rw [← adds.others.entities] at member
  obtain ⟨whole, inside, rfl⟩ := List.mem_map.mp member
  exact adds.wellFormed.carries_iff.mpr
    ⟨whole, inside, sameId, attached, List.mem_of_mem_filter has, same⟩

theorem of_adds {added : List (EntityId × CapabilityId)} (carried : scene.Carries type pair)
    (wf : base.WellFormed) (adds : base.AddsCapabilities added scene) (old : pair ∉ added) :
    base.Carries type pair := by
  obtain ⟨entity, member, sameId, attached, has, sameCapability, same⟩ :=
    adds.wellFormed.carries_iff.mp carried
  refine wf.carries_iff.mpr ⟨entity.without added, ?_, sameId, attached,
    List.mem_filter.mpr ⟨has, ?_⟩, sameCapability, same⟩
  · rw [← adds.others.entities]
    exact List.mem_map_of_mem member
  · simpa [sameId, sameCapability] using old

end Carries

namespace WellFormed

variable (wf : scene.WellFormed)
include wf

theorem carries_setParent_iff {parent : Option EntityId}
    (done : scene.setParent id parent = .ok changed) :
    changed.Carries type pair ↔ scene.Carries type pair := by
  have changedWf := wf.setParent done
  obtain ⟨entity, found, -, rfl⟩ := setParent_eq_ok_iff.mp done
  obtain ⟨member, rfl⟩ := mem_of_entity? found
  rw [changedWf.carries_iff, wf.carries_iff]
  constructor
  · rintro ⟨owner, inside, has⟩
    rcases mem_moved.mp inside with ⟨old, -⟩ | rfl
    · exact ⟨owner, old, has⟩
    · exact ⟨entity, member, has⟩
  · rintro ⟨owner, inside, has⟩
    by_cases here : owner.id = entity.id
    · obtain rfl := wf.eq_of_id inside member here
      exact ⟨_, mem_moved.mpr (Or.inr rfl), has⟩
    · exact ⟨owner, mem_moved.mpr (Or.inl ⟨inside, here⟩), has⟩

theorem carries_detach_iff {capability : CapabilityId}
    (done : scene.detach id capability = .ok changed) :
    changed.Carries type pair ↔ scene.Carries type pair ∧ pair.2 ≠ capability := by
  have changedWf := wf.detach done
  obtain ⟨entity, gone, found, attachedHere, -, rfl⟩ := detach_eq_ok_iff.mp done
  obtain ⟨member, rfl⟩ := mem_of_entity? found
  obtain ⟨had, rfl⟩ := Entity.mem_of_attached? attachedHere
  rw [changedWf.carries_iff, wf.carries_iff]
  constructor
  · rintro ⟨owner, inside, sameId, attached, has, sameCapability, same⟩
    obtain ⟨old, isOld, rfl⟩ := mem_modify.mp inside
    split at has
    · rename_i here
      rw [if_pos here] at sameId
      obtain ⟨has, other⟩ := List.mem_filter.mp has
      exact ⟨⟨old, isOld, sameId, attached, has, sameCapability, same⟩,
        by simpa [sameCapability] using other⟩
    · rename_i elsewhere
      rw [if_neg elsewhere] at sameId
      refine ⟨⟨old, isOld, sameId, attached, has, sameCapability, same⟩, fun isGone => elsewhere ?_⟩
      rw [(wf.eq_of_capability isOld member has had (sameCapability.trans isGone)).1]
  · rintro ⟨⟨owner, inside, sameId, attached, has, sameCapability, same⟩, other⟩
    refine ⟨_, mem_modify.mpr ⟨owner, inside, rfl⟩, ?_⟩
    split
    · refine ⟨sameId, attached, List.mem_filter.mpr ⟨has, ?_⟩, sameCapability, same⟩
      simpa [sameCapability] using other
    · exact ⟨sameId, attached, has, sameCapability, same⟩

theorem carries_edit_iff (id : EntityId) (edit : RecordEdit) :
    (scene.modify id edit.apply).Carries type pair ↔ scene.Carries type pair := by
  -- The pairs of identity and type are all that counts, and an edit keeps them.
  have listed : ∀ entity : Entity, (∃ attached ∈ entity.capabilities, attached.id = pair.2 ∧
      attached.type.fullName = type.fullName) ↔
      ∃ tag ∈ entity.capabilities.map fun capability => (capability.id, capability.type),
        tag.1 = pair.2 ∧ tag.2.fullName = type.fullName := by
    intro entity
    simp only [List.mem_map, exists_exists_and_eq_and]
  have keeps : ∀ entity : Entity, (∃ attached ∈ (edit.apply entity).capabilities,
      attached.id = pair.2 ∧ attached.type.fullName = type.fullName) ↔
      ∃ attached ∈ entity.capabilities, attached.id = pair.2 ∧
        attached.type.fullName = type.fullName := by
    intro entity
    rw [listed, listed, edit.keeps_capabilities]
  rw [(wf.edit id edit).carries_iff, wf.carries_iff]
  constructor
  · rintro ⟨owner, inside, sameId, has⟩
    obtain ⟨old, isOld, rfl⟩ := mem_modify.mp inside
    by_cases here : old.id = id
    · rw [if_pos here] at sameId has
      exact ⟨old, isOld, (edit.keeps_id old).symm.trans sameId, (keeps old).mp has⟩
    · rw [if_neg here] at sameId has
      exact ⟨old, isOld, sameId, has⟩
  · rintro ⟨owner, inside, sameId, has⟩
    refine ⟨_, mem_modify.mpr ⟨owner, inside, rfl⟩, ?_⟩
    split
    · exact ⟨(edit.keeps_id owner).trans sameId, (keeps owner).mpr has⟩
    · exact ⟨sameId, has⟩

end WellFormed

/-- A new capability is in the state that it was attached with. -/
theorem WellFormed.holds_of_attach (wf : scene.WellFormed) {state : Object}
    {capability : CapabilityId} (done : scene.attach id type state = .ok (capability, changed)) :
    changed.Holds id capability state ∧ changed.Carries type (id, capability) ∧
      scene.nextCapability ≤ capability.number := by
  have changedWf := wf.attach done
  obtain ⟨known, -, rfl, rfl⟩ := attach_eq_ok_iff.mp done
  obtain ⟨entity, member, rfl⟩ := List.mem_map.mp known
  let new : Capability := ⟨⟨scene.nextCapability⟩, type, state⟩
  have inside : entity.plus new ∈ (scene.modify entity.id fun entity => entity.plus new).entities :=
    mem_modify.mpr ⟨entity, member, if_pos rfl⟩
  have has : new ∈ (entity.plus new).capabilities :=
    List.mem_append_right _ (List.mem_singleton_self _)
  obtain ⟨attached, here⟩ := Entity.exists_attached? has
  obtain ⟨hasAttached, same⟩ := Entity.mem_of_attached? here
  obtain ⟨-, rfl⟩ := changedWf.eq_of_capability inside inside hasAttached has same
  refine ⟨⟨entity.plus new, new, ?_, here, rfl⟩, ?_, Int.le_refl _⟩
  · exact changedWf.entity?_of_mem inside
  · exact changedWf.carries_iff.mpr ⟨_, inside, rfl, new, has, rfl, rfl⟩

/-! ### Changes at some entities -/

/-- A scene that differs from another one at some entities only. -/
structure OnlyAt (base : Scene) (ids : List EntityId) (scene : Scene) : Prop where
  wellFormed : scene.WellFormed
  transform : scene.transform = base.transform
  remain : base.entities.map Entity.id ⊆ scene.entities.map Entity.id
  others : ∀ other ∉ ids, scene.entity? other = base.entity? other

/-- A parent that entities can be moved under: the root, or an entity that lies below none of
them. -/
def Admits (scene : Scene) (targets : List EntityId) (parent : Option EntityId) : Prop :=
  ∀ above, parent = some above → above ∈ scene.entities.map Entity.id ∧
    ∀ target ∈ targets, ¬ scene.Below above target

namespace OnlyAt

variable {ids more : List EntityId}

theorem refl (wf : base.WellFormed) : base.OnlyAt ids base :=
  ⟨wf, rfl, List.Subset.refl _, fun _ _ => rfl⟩

theorem mono (only : base.OnlyAt ids scene) (weaker : ids ⊆ more) : base.OnlyAt more scene :=
  ⟨only.wellFormed, only.transform, only.remain,
    fun other outside => only.others other fun inside => outside (weaker inside)⟩

theorem trans (first : base.OnlyAt ids scene) (second : scene.OnlyAt more changed) :
    base.OnlyAt (ids ++ more) changed where
  wellFormed := second.wellFormed
  transform := second.transform.trans first.transform
  remain := List.Subset.trans first.remain second.remain
  others other outside := by
    rw [List.mem_append, not_or] at outside
    exact (second.others other outside.2).trans (first.others other outside.1)

theorem isTransform (only : base.OnlyAt ids scene) (type : Descriptor) :
    scene.isTransform type = base.isTransform type := by
  unfold Scene.isTransform
  rw [only.transform]

theorem of_modify (only : base.OnlyAt ids scene) (among : id ∈ ids) {change : Entity → Entity}
    (keepsId : ∀ entity, (change entity).id = entity.id) (changedWf : changed.WellFormed)
    (modified : changed.entities = (scene.modify id change).entities)
    (transform : changed.transform = scene.transform) : base.OnlyAt ids changed := by
  refine ⟨changedWf, transform.trans only.transform, ?_, fun other outside => ?_⟩
  · rw [modified, map_modify _ keepsId]
    exact only.remain
  · have same : changed.entity? other = (scene.modify id change).entity? other := by
      rw [entity?, entity?, modified]
    rw [same, entity?_modify keepsId, ← only.others other outside]
    refine (Option.map_congr fun entity found => if_neg ?_).trans Option.map_id'
    rw [(mem_of_entity? found).2]
    exact fun here => outside (here ▸ among)

theorem setParent (only : base.OnlyAt ids scene) (among : id ∈ ids) {parent : Option EntityId}
    (done : scene.setParent id parent = .ok changed) : base.OnlyAt ids changed := by
  have changedWf := only.wellFormed.setParent done
  obtain ⟨entity, found, -, rfl⟩ := setParent_eq_ok_iff.mp done
  obtain ⟨member, rfl⟩ := mem_of_entity? found
  refine ⟨changedWf, only.transform, List.Subset.trans only.remain map_id_subset_moved,
    fun other outside => ?_⟩
  rw [← only.others other outside]
  apply Option.ext
  intro record
  rw [entity?_eq_some_iff changedWf.ids_nodup, entity?_eq_some_iff only.wellFormed.ids_nodup]
  constructor
  · rintro ⟨inside, rfl⟩
    rcases mem_moved.mp inside with ⟨old, -⟩ | rfl
    · exact ⟨old, rfl⟩
    · exact absurd among outside
  · rintro ⟨inside, rfl⟩
    exact ⟨mem_moved.mpr (Or.inl ⟨inside, fun here => outside (here ▸ among)⟩), rfl⟩

theorem attach (only : base.OnlyAt ids scene) (among : id ∈ ids) {state : Object}
    {capability : CapabilityId} (done : scene.attach id type state = .ok (capability, changed)) :
    base.OnlyAt ids changed := by
  have changedWf := only.wellFormed.attach done
  obtain ⟨-, -, rfl, rfl⟩ := attach_eq_ok_iff.mp done
  exact only.of_modify among (fun entity => entity.plus_id _) changedWf rfl rfl

theorem detach (only : base.OnlyAt ids scene) (among : id ∈ ids) {capability : CapabilityId}
    (done : scene.detach id capability = .ok changed) : base.OnlyAt ids changed := by
  have changedWf := only.wellFormed.detach done
  obtain ⟨_, _, _, _, _, rfl⟩ := detach_eq_ok_iff.mp done
  exact only.of_modify among (fun entity => entity.minus_id _) changedWf rfl rfl

theorem edit (only : base.OnlyAt ids scene) (among : id ∈ ids) (edit : RecordEdit) :
    base.OnlyAt ids (scene.modify id edit.apply) :=
  only.of_modify among edit.keeps_id (only.wellFormed.edit id edit) rfl rfl

theorem stableAt (base : Scene) (among : id ∈ ids) :
    Scene.StableAt id fun scene _ => base.OnlyAt ids scene where
  setParent only done := only.setParent among done
  attach only done := only.attach among done
  detach only done := only.detach among done
  edit edit only := only.edit among edit

/-- Links above an entity that lies below none of those that changed are as they were. -/
theorem below (only : base.OnlyAt ids scene) {parent : EntityId}
    (outside : ∀ other ∈ ids, ¬ base.Below parent other) {above : EntityId}
    (below : scene.Below parent above) : base.Below parent above := by
  induction below with
  | refl => exact .refl
  | @tail middle above _ link ih =>
      refine ih.tail ?_
      rw [← link, parentOf?, parentOf?, only.others middle fun among => outside middle among ih]

/-- Whatever has been done to some entities, one of them can still be moved under a parent that
they could be moved under before. -/
theorem exists_setParent (only : base.OnlyAt ids scene) (among : id ∈ ids)
    (known : id ∈ base.entities.map Entity.id) {parent : Option EntityId}
    (admitted : base.Admits ids parent) :
    ∃ changed, scene.setParent id parent = .ok changed := by
  obtain ⟨entity, found⟩ := Option.isSome_iff_exists.mp
    (entity?_isSome_iff.mpr (only.remain known))
  refine ⟨_, setParent_eq_ok_iff.mpr ⟨entity, found, fun above under => ?_, rfl⟩⟩
  obtain ⟨there, outside⟩ := admitted above under
  refine ⟨only.remain there, Bool.eq_false_iff.mpr fun within => ?_⟩
  exact outside id among (only.below outside (only.wellFormed.isWithin_iff.mp within))

end OnlyAt
end SceneEdit.Scene

namespace SceneEdit.Host

/-- A capability that an entity has is found. -/
theorem capabilityOf_eq_ok {host : Host} {scene : Scene} {type : Descriptor}
    {pair : EntityId × CapabilityId} (views : host.Grants .viewEntity)
    (carried : scene.Carries type pair) :
    ∃ capability, host.capabilityOf scene type pair.1 = .ok capability := by
  obtain ⟨entity, attached, found, here, same⟩ := carried
  have first : (entity.capability? type.fullName).isSome := by
    rw [Entity.capability?, List.find?_isSome]
    exact ⟨attached, (Entity.mem_of_attached? here).1, decide_eq_true same⟩
  obtain ⟨capability, given⟩ := Option.isSome_iff_exists.mp first
  have shown : host.record scene pair.1 = .ok entity := by
    rw [record, views.entity?, found]
  refine ⟨capability, bind_eq_ok_iff.mpr ⟨entity, shown, ?_⟩⟩
  rw [given]

end SceneEdit.Host
