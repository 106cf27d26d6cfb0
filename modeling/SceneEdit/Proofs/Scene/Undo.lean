import SceneEdit.Proofs.Scene.WellFormed

/-!
# What undoing leads back to

An operation that fails halfway takes back what it added: a new entity with what lies below it, or
capabilities. For either way this module has a relation between the scene an operation began with
and the scenes it passes through: taking the additions away leaves the former. The relation holds
at the beginning, the changes an operation makes before it fails keep it, and it says where undoing
ends, the order of the table and of attachment included.

Only the counters do not come back.
-/

namespace SceneEdit

namespace Scene

variable {base scene changed : Scene} {root id : EntityId}

/-- The same entities, layers and transform; the counters may differ. -/
structure Agrees (base scene : Scene) : Prop where
  entities : scene.entities = base.entities
  layers : scene.layers = base.layers
  transform : scene.transform = base.transform

theorem Agrees.refl (scene : Scene) : scene.Agrees scene := ⟨rfl, rfl, rfl⟩

/-! ### Taking a subtree away -/

/-- Walks down depend on identities and parents only. -/
theorem subtree_congr
    (links : changed.entities.map (fun entity => (entity.id, entity.parent)) =
      scene.entities.map fun entity => (entity.id, entity.parent)) (id : EntityId) :
    changed.subtree id = scene.subtree id := by
  have children (other : Scene) (parent : Option EntityId) : other.childIds parent =
      ((other.entities.map fun entity => (entity.id, entity.parent)).filter
        fun link => link.2 = parent).map Prod.fst := by
    rw [List.filter_map, List.map_map]
    rfl
  have lengths := congrArg List.length links
  rw [List.length_map, List.length_map] at lengths
  simp only [subtree, lengths, children, links]

/-- A change of a record does not show where the record is left out. -/
theorem filter_modify {change : Entity → Entity}
    (keepsId : ∀ entity, (change entity).id = entity.id)
    (shown : EntityId → Bool) (hidden : shown id = false) :
    (scene.modify id change).entities.filter (fun entity => shown entity.id) =
      scene.entities.filter fun entity => shown entity.id := by
  rw [modify, List.filter_map]
  simp only [Function.comp_def, modified_id keepsId]
  refine (List.map_congr_left fun entity member => ?_).trans (List.map_id _)
  apply if_neg
  rintro rfl
  simp [hidden] at member

/-- Two scenes whose parent links differ at one entity only have the same entities below it: a chain
of links ends where it first meets the entity. -/
theorem Below.of_agree_elsewhere {x : EntityId}
    (agree : ∀ other, other ≠ root → scene.parentOf? other = changed.parentOf? other)
    (below : scene.Below x root) : changed.Below x root := by
  induction below using Relation.ReflTransGen.head_induction_on with
  | refl => exact .refl
  | @head other above link _ ih =>
      by_cases here : other = root
      · rw [here]
        exact .refl
      · exact ih.head ((agree other here).symm.trans link)

theorem parentOf?_moved {entity : Entity} {parent : Option EntityId} (wf : scene.WellFormed)
    (movedWf : ({ scene with entities := scene.moved entity parent } : Scene).WellFormed)
    {other : EntityId} (different : other ≠ entity.id) :
    ({ scene with entities := scene.moved entity parent } : Scene).parentOf? other =
      scene.parentOf? other := by
  apply Option.ext
  intro above
  rw [wf.parentOf?_eq_some_iff, movedWf.parentOf?_eq_some_iff, mem_childIds, mem_childIds]
  constructor
  · rintro ⟨record, inside, rfl, up⟩
    rcases mem_moved.mp inside with ⟨old, _⟩ | rfl
    · exact ⟨record, old, rfl, up⟩
    · exact absurd rfl different
  · rintro ⟨record, inside, rfl, up⟩
    exact ⟨record, mem_moved.mpr (Or.inl ⟨inside, different⟩), rfl, up⟩

/-- A scene made from another one by adding an entity and what lies below it. -/
structure AddsSubtree (base : Scene) (root : EntityId) (scene : Scene) : Prop where
  wellFormed : scene.WellFormed
  mem_ids : root ∈ scene.entities.map Entity.id
  others : base.Agrees { scene with
    entities := scene.entities.filter fun entity => !(scene.subtree root).contains entity.id }

namespace AddsSubtree

/-- Destroying what was added leads back. -/
theorem destroy (added : AddsSubtree base root scene) :
    ∃ changed, scene.destroy root = .ok changed ∧ base.Agrees changed :=
  ⟨_, destroy_eq_ok_iff.mpr ⟨added.mem_ids, rfl⟩, added.others⟩

/-- Nothing old lies below an entity that is new. -/
theorem mem_ids_of_below_append (wf : base.WellFormed) (changedWf : changed.WellFormed)
    {made : List Entity} (appended : changed.entities = base.entities ++ made) {x y : EntityId}
    (old : x ∈ base.entities.map Entity.id) (below : changed.Below x y) :
    y ∈ base.entities.map Entity.id := by
  induction below with
  | refl => exact old
  | tail _ link ih =>
      obtain ⟨entity, member, rfl, up⟩ :=
        mem_childIds.mp (changedWf.parentOf?_eq_some_iff.mp link)
      obtain ⟨known, inside, same⟩ := List.mem_map.mp ih
      have stays : known ∈ changed.entities := by
        rw [appended]
        exact List.mem_append_left _ inside
      obtain rfl := List.inj_on_of_nodup_map changedWf.ids_nodup stays member same
      exact wf.parents_exist known inside _ up

/-- New entities at the end of the table that all lie below one of them. -/
theorem of_append (wf : base.WellFormed) (changedWf : changed.WellFormed) {made : List Entity}
    (appended : changed.entities = base.entities ++ made) (layers : changed.layers = base.layers)
    (transform : changed.transform = base.transform) (new : root ∉ base.entities.map Entity.id)
    (mem_ids : root ∈ made.map Entity.id) (below : ∀ entity ∈ made, changed.Below entity.id root) :
    AddsSubtree base root changed := by
  refine ⟨changedWf, ?_, ⟨?_, layers, transform⟩⟩
  · rw [appended, List.map_append]
    exact List.mem_append_right _ mem_ids
  · dsimp only
    rw [appended, List.filter_append, List.filter_eq_self.mpr, List.filter_eq_nil_iff.mpr,
      List.append_nil]
    · intro entity member
      simpa [changedWf.mem_subtree_iff] using below entity member
    · intro entity member
      simp only [Bool.not_eq_true', ← Bool.not_eq_true, List.contains_iff_mem,
        changedWf.mem_subtree_iff]
      exact fun chain => new (mem_ids_of_below_append wf changedWf appended
        (List.mem_map_of_mem member) chain)

theorem next_not_mem (wf : base.WellFormed) :
    (⟨base.nextEntity⟩ : EntityId) ∉ base.entities.map Entity.id :=
  fun member => Int.lt_irrefl _ (wf.lt_of_mem_ids member)

theorem create (wf : base.WellFormed) {name : String} {parent : Option EntityId}
    (made : base.create name parent = .ok (id, changed)) : AddsSubtree base id changed := by
  have changedWf := wf.create made
  obtain ⟨_, rfl, rfl⟩ := create_eq_ok_iff.mp made
  refine of_append wf changedWf rfl rfl rfl (next_not_mem wf) (by simp [newborn]) ?_
  intro entity member
  obtain rfl := List.mem_singleton.mp member
  exact .refl

/-- The root of a subtree is the first to be copied. -/
theorem copyOf?_root (wf : base.WellFormed) (id : EntityId) :
    copyOf? (base.subtree id) base.nextEntity id = some ⟨base.nextEntity⟩ := by
  rw [wf.subtree_eq id]
  simp [copyOf?, List.idxOf?_cons]

/-- The copy of what lies below an entity lies below the copy of the entity. -/
theorem below_copy (wf : base.WellFormed) {name : String} {copy : EntityId}
    (made : base.duplicate id name = .ok (copy, changed)) {x : EntityId} (below : base.Below x id) :
    ∀ copied, copyOf? (base.subtree id) base.nextEntity x = some copied →
      changed.Below copied copy := by
  have changedWf := wf.duplicate made
  obtain ⟨exist, rfl, rfl⟩ := duplicate_eq_ok_iff.mp made
  induction below using Relation.ReflTransGen.head_induction_on with
  | refl =>
      intro copied given
      rw [copyOf?_root wf] at given
      cases given
      exact .refl
  | @head other above link rest ih =>
      intro copied given
      by_cases here : other = id
      · rw [here, copyOf?_root wf] at given
        cases given
        exact .refl
      · -- The copy of `other` is put under the copy of its parent.
        obtain ⟨copiedAbove, givenAbove⟩ := WellFormed.exists_copyOf? base.nextEntity
          (wf.mem_subtree_iff.mpr rest)
        obtain ⟨entity, member, rfl, up⟩ := mem_childIds.mp (wf.parentOf?_eq_some_iff.mp link)
        have inside := wf.mem_originals.mpr ⟨member, wf.mem_subtree_iff.mpr (rest.head link)⟩
        obtain ⟨first, stands⟩ :=
          exists_mem_copies (base.renamed id name) base.nextCapability inside
        rw [wf.copyOf?_original name inside, Option.some.injEq] at given
        have upCopied : (base.renamed id name entity).parent = some copiedAbove := by
          simp [renamed, here, up, givenAbove]
        refine (ih copiedAbove givenAbove).head (changedWf.parentOf?_eq_some_iff.mpr ?_)
        exact mem_childIds.mpr ⟨_, List.mem_append_right _ stands, given, upCopied⟩

theorem duplicate (wf : base.WellFormed) {name : String} {copy : EntityId}
    (made : base.duplicate id name = .ok (copy, changed)) : AddsSubtree base copy changed := by
  have changedWf := wf.duplicate made
  have copied : ∀ entity ∈ base.originals id, base.Below entity.id id ∧
      copyOf? (base.subtree id) base.nextEntity entity.id =
        some (base.renamed id name entity).id := fun entity inside =>
    ⟨wf.mem_subtree_iff.mp (wf.mem_originals.mp inside).2, wf.copyOf?_original name inside⟩
  have below : ∀ entity ∈ base.originals id,
      changed.Below (base.renamed id name entity).id copy := fun entity inside =>
    below_copy wf made (copied entity inside).1 _ (copied entity inside).2
  obtain ⟨exist, rfl, rfl⟩ := duplicate_eq_ok_iff.mp made
  refine of_append wf changedWf rfl rfl rfl (next_not_mem wf) ?_ ?_
  · obtain ⟨entity, member, rfl⟩ := List.mem_map.mp exist
    have inside := wf.mem_originals.mpr ⟨member, wf.mem_subtree_iff.mpr .refl⟩
    have root := (copied entity inside).2
    rw [copyOf?_root wf, Option.some.injEq] at root
    rw [map_id_copies]
    exact List.mem_map.mpr ⟨entity, inside, root.symm⟩
  · intro entity member
    obtain ⟨original, inside, same, _⟩ := exists_of_mem_copies member
    rw [same]
    exact below original inside

/-! ### Changes of the entity that was added -/

/-- A change of the entity's record that leaves identities and parents alone. -/
theorem of_modify (added : AddsSubtree base root scene) {change : Entity → Entity}
    (keepsId : ∀ entity, (change entity).id = entity.id)
    (keepsParent : ∀ entity, (change entity).parent = entity.parent)
    (changedWf : changed.WellFormed)
    (modified : changed.entities = (scene.modify root change).entities)
    (layers : changed.layers = scene.layers) (transform : changed.transform = scene.transform) :
    AddsSubtree base root changed := by
  have links : changed.entities.map (fun entity => (entity.id, entity.parent)) =
      scene.entities.map fun entity => (entity.id, entity.parent) := by
    rw [modified]
    exact map_modify _ fun entity => by rw [keepsId, keepsParent]
  have hidden : (!(scene.subtree root).contains root) = false := by
    simpa using added.wellFormed.mem_subtree_iff.mpr .refl
  refine ⟨changedWf, ?_, ⟨?_, layers.trans added.others.layers,
    transform.trans added.others.transform⟩⟩
  · rw [modified, map_modify _ keepsId]
    exact added.mem_ids
  · dsimp only
    rw [subtree_congr links root, modified]
    exact (filter_modify keepsId (fun id => !(scene.subtree root).contains id) hidden).trans
      added.others.entities

theorem edit (added : AddsSubtree base root scene) (edit : RecordEdit) :
    AddsSubtree base root (scene.modify root edit.apply) :=
  added.of_modify edit.keeps_id edit.keeps_parent (added.wellFormed.edit root edit) rfl rfl rfl

theorem attach (added : AddsSubtree base root scene) {type : Descriptor} {state : Object}
    {capability : CapabilityId}
    (done : scene.attach root type state = .ok (capability, changed)) :
    AddsSubtree base root changed := by
  have changedWf := added.wellFormed.attach done
  obtain ⟨_, _, rfl, rfl⟩ := attach_eq_ok_iff.mp done
  exact added.of_modify (fun entity => entity.plus_id _) (fun entity => entity.plus_parent _)
    changedWf rfl rfl rfl

theorem detach (added : AddsSubtree base root scene) {capability : CapabilityId}
    (done : scene.detach root capability = .ok changed) : AddsSubtree base root changed := by
  have changedWf := added.wellFormed.detach done
  obtain ⟨_, _, _, _, _, rfl⟩ := detach_eq_ok_iff.mp done
  exact added.of_modify (fun entity => entity.minus_id capability)
    (fun entity => entity.minus_parent capability) changedWf rfl rfl rfl

/-- Moving the entity takes what lies below it along. -/
theorem setParent (added : AddsSubtree base root scene) {parent : Option EntityId}
    (done : scene.setParent root parent = .ok changed) : AddsSubtree base root changed := by
  have wf := added.wellFormed
  have changedWf := wf.setParent done
  obtain ⟨entity, found, _, rfl⟩ := setParent_eq_ok_iff.mp done
  obtain ⟨member, rfl⟩ := mem_of_entity? found
  have same : ∀ x, (({ scene with entities := scene.moved entity parent } : Scene).subtree
      entity.id).contains x = (scene.subtree entity.id).contains x := by
    intro x
    rw [Bool.eq_iff_iff, List.contains_iff_mem, List.contains_iff_mem, wf.mem_subtree_iff,
      changedWf.mem_subtree_iff]
    exact ⟨Below.of_agree_elsewhere fun _ => parentOf?_moved wf changedWf,
      Below.of_agree_elsewhere fun _ different => (parentOf?_moved wf changedWf different).symm⟩
  have self : entity.id ∈ scene.subtree entity.id := wf.mem_subtree_iff.mpr .refl
  refine ⟨changedWf, List.mem_map.mpr ⟨_, mem_moved.mpr (Or.inr rfl), rfl⟩, ⟨?_,
    added.others.layers, added.others.transform⟩⟩
  rw [← added.others.entities]
  simp only [same]
  rw [moved, List.filter_append, List.filter_filter, List.filter_cons_of_neg (by simpa using self),
    List.filter_nil, List.append_nil]
  apply List.filter_congr
  intro other _
  rw [Bool.eq_iff_iff]
  simp only [Bool.and_eq_true, Bool.not_eq_true', decide_eq_true_eq, and_iff_left_iff_imp]
  rintro outside here
  simp [here, self] at outside

end AddsSubtree
end Scene

/-! ### Taking capabilities away -/

/-- The entity without those of its capabilities that are listed. -/
def Entity.without (listed : List (EntityId × CapabilityId)) (entity : Entity) : Entity :=
  { entity with
    capabilities := entity.capabilities.filter fun capability =>
      (entity.id, capability.id) ∉ listed }

namespace Entity

variable {listed kept : List (EntityId × CapabilityId)} {entity : Entity}

@[simp] theorem map_without_nil (entities : List Entity) :
    entities.map (Entity.without []) = entities :=
  (List.map_congr_left fun entity _ => by simp [without]).trans (List.map_id _)

/-- Listing what an entity does not have takes nothing more away. -/
theorem without_congr
    (same : ∀ capability ∈ entity.capabilities,
      (entity.id, capability.id) ∈ listed ↔ (entity.id, capability.id) ∈ kept) :
    entity.without listed = entity.without kept := by
  simp only [without]
  congr 1
  apply List.filter_congr
  intro capability has
  simp only [same capability has]

/-- A listed capability may be written into. -/
theorem without_setState {capability : CapabilityId} (state : Object)
    (isListed : (entity.id, capability) ∈ listed) :
    (entity.setState capability state).without listed = entity.without listed := by
  simp only [without, setState]
  congr 1
  rw [List.filter_map]
  have ids : ∀ attached : Capability,
      (if attached.id = capability then { attached with state } else attached).id =
        attached.id := by
    intro attached
    split <;> rfl
  simp only [Function.comp_def, ids]
  refine (List.map_congr_left fun attached member => ?_).trans (List.map_id _)
  apply if_neg
  rintro rfl
  simp [isListed] at member

/-- A new capability that is listed is taken away again. -/
theorem without_plus {capability : Capability}
    (new : ∀ attached ∈ entity.capabilities, attached.id ≠ capability.id) :
    (entity.plus capability).without (listed ++ [(entity.id, capability.id)]) =
      entity.without listed := by
  simp only [without, plus, List.filter_append]
  congr 1
  rw [List.filter_cons_of_neg (by simp), List.filter_nil, List.append_nil]
  apply List.filter_congr
  intro attached has
  simp [new attached has]

/-- Taking a listed capability away leaves less to be taken away. -/
theorem without_minus {capability : CapabilityId}
    (split : ∀ pair, pair ∈ listed ↔ pair = (entity.id, capability) ∨ pair ∈ kept) :
    (entity.minus capability).without kept = entity.without listed := by
  simp only [without, minus, List.filter_filter]
  congr 1
  apply List.filter_congr
  intro attached _
  rw [Bool.eq_iff_iff]
  simp only [Bool.and_eq_true, decide_eq_true_eq, split, not_or, Prod.mk.injEq, true_and, ne_eq]
  exact (and_congr_left' decide_eq_true_iff).trans and_comm

end Entity

namespace Scene

variable {base scene changed : Scene} {id : EntityId} {capability : CapabilityId}
variable {added kept : List (EntityId × CapabilityId)}

/-- A scene made from another one by attaching capabilities, none of them a transform. -/
structure AddsCapabilities (base : Scene) (added : List (EntityId × CapabilityId))
    (scene : Scene) : Prop where
  wellFormed : scene.WellFormed
  removable : ∀ entity ∈ scene.entities, ∀ attached ∈ entity.capabilities,
    (entity.id, attached.id) ∈ added → scene.isTransform attached.type = false
  others : base.Agrees { scene with entities := scene.entities.map (Entity.without added) }

namespace AddsCapabilities

theorem refl (wf : base.WellFormed) : AddsCapabilities base [] base :=
  ⟨wf, by simp, ⟨by simp, rfl, rfl⟩⟩

theorem agrees (adds : AddsCapabilities base [] scene) : base.Agrees scene :=
  ⟨by simpa using adds.others.entities, adds.others.layers, adds.others.transform⟩

theorem map_id (adds : AddsCapabilities base added scene) :
    scene.entities.map Entity.id = base.entities.map Entity.id := by
  rw [← adds.others.entities, List.map_map]
  rfl

/-- Changing a record while what is left after taking the listed capabilities away stays. -/
theorem of_modify (adds : AddsCapabilities base added scene) {change : Entity → Entity}
    (changedWf : changed.WellFormed)
    (modified : changed.entities = (scene.modify id change).entities)
    (layers : changed.layers = scene.layers) (transform : changed.transform = scene.transform)
    (here : ∀ entity ∈ scene.entities, entity.id = id →
      (change entity).without kept = entity.without added)
    (elsewhere : ∀ entity ∈ scene.entities, entity.id ≠ id →
      entity.without kept = entity.without added)
    (removable : ∀ entity ∈ changed.entities, ∀ attached ∈ entity.capabilities,
      (entity.id, attached.id) ∈ kept → changed.isTransform attached.type = false) :
    AddsCapabilities base kept changed := by
  refine ⟨changedWf, removable, ⟨?_, layers.trans adds.others.layers,
    transform.trans adds.others.transform⟩⟩
  rw [← adds.others.entities]
  simp only [modified, modify, List.map_map]
  apply List.map_congr_left
  intro entity member
  simp only [Function.comp_apply]
  split
  · exact here entity member ‹_›
  · exact elsewhere entity member ‹_›

theorem attach (adds : AddsCapabilities base added scene) {type : Descriptor} {state : Object}
    (done : scene.attach id type state = .ok (capability, changed)) :
    AddsCapabilities base (added ++ [(id, capability)]) changed := by
  have changedWf := adds.wellFormed.attach done
  obtain ⟨_, other, rfl, rfl⟩ := attach_eq_ok_iff.mp done
  have new : ∀ entity ∈ scene.entities, ∀ attached ∈ entity.capabilities,
      attached.id ≠ ⟨scene.nextCapability⟩ := by
    intro entity member attached has same
    have small := adds.wellFormed.capabilities_lt _
      (mem_capabilityIds.mpr ⟨entity, member, attached, has, same⟩)
    exact Int.lt_irrefl _ small
  refine adds.of_modify changedWf rfl rfl rfl ?_ ?_ ?_
  · rintro entity member rfl
    exact Entity.without_plus (new entity member)
  · intro entity member different
    exact Entity.without_congr fun attached _ => by simp [different]
  · intro entity member attached has isAdded
    obtain ⟨old, inside, rfl⟩ := mem_modify.mp member
    have oldRemovable : ∀ attached ∈ old.capabilities,
        (old.id, attached.id) ∈ added ++ [(id, ⟨scene.nextCapability⟩)] →
        scene.isTransform attached.type = false := by
      intro attached has isAdded
      refine adds.removable old inside attached has ?_
      simpa [new old inside attached has] using isAdded
    split at has
    · rename_i here
      rw [if_pos here] at isAdded
      rcases List.mem_append.mp has with has | fresh
      · exact oldRemovable attached has isAdded
      · obtain rfl := List.mem_singleton.mp fresh
        exact other
    · rename_i elsewhere
      rw [if_neg elsewhere] at isAdded
      exact oldRemovable attached has isAdded

/-- What was added may be written into. -/
theorem setState (adds : AddsCapabilities base added scene) (isAdded : (id, capability) ∈ added)
    (state : Object) :
    AddsCapabilities base added
      (scene.modify id fun entity => entity.setState capability state) := by
  refine adds.of_modify (adds.wellFormed.edit id (.setState capability state)) rfl rfl rfl ?_
    (fun _ _ _ => rfl) ?_
  · rintro entity _ rfl
    exact Entity.without_setState state isAdded
  · intro entity member attached has listed
    obtain ⟨old, inside, rfl⟩ := mem_modify.mp member
    split at has
    · rename_i here
      rw [if_pos here] at listed
      obtain ⟨before, had, rfl⟩ := List.mem_map.mp has
      have := adds.removable old inside before had
      split at listed <;> split <;> exact this listed
    · rename_i elsewhere
      rw [if_neg elsewhere] at listed
      exact adds.removable old inside attached has listed

/-- Detaching one of the capabilities leaves the others to be detached. -/
theorem detach (adds : AddsCapabilities base added scene)
    (split : ∀ pair, pair ∈ added ↔ pair = (id, capability) ∨ pair ∈ kept)
    (done : scene.detach id capability = .ok changed) : AddsCapabilities base kept changed := by
  have changedWf := adds.wellFormed.detach done
  obtain ⟨_, _, _, _, _, rfl⟩ := detach_eq_ok_iff.mp done
  refine adds.of_modify changedWf rfl rfl rfl ?_ ?_ ?_
  · rintro entity _ rfl
    exact Entity.without_minus split
  · intro entity _ different
    exact Entity.without_congr fun attached _ => by simp [split, different]
  · intro entity member attached has listed
    obtain ⟨old, inside, rfl⟩ := mem_modify.mp member
    split at has
    · rename_i here
      rw [if_pos here] at listed
      exact adds.removable old inside attached (List.mem_of_mem_filter has)
        ((split _).mpr (Or.inr listed))
    · rename_i elsewhere
      rw [if_neg elsewhere] at listed
      exact adds.removable old inside attached has ((split _).mpr (Or.inr listed))

/-- The scene refuses to detach only what is gone. -/
theorem of_detach_error (adds : AddsCapabilities base added scene)
    (split : ∀ pair, pair ∈ added ↔ pair = (id, capability) ∨ pair ∈ kept)
    (refused : ∀ changed, scene.detach id capability ≠ .ok changed) :
    AddsCapabilities base kept scene := by
  have gone : ∀ entity ∈ scene.entities, ∀ attached ∈ entity.capabilities,
      (entity.id, attached.id) ≠ (id, capability) := by
    rintro entity member attached has ⟨rfl, rfl⟩
    obtain ⟨other, found⟩ := Entity.exists_attached? has
    obtain ⟨hasOther, same⟩ := Entity.mem_of_attached? found
    have removable := adds.removable entity member other hasOther
      ((split _).mpr (Or.inl (by rw [same])))
    exact refused _ (detach_eq_ok_iff.mpr ⟨entity, other,
      adds.wellFormed.entity?_of_mem member, found, removable, rfl⟩)
  refine ⟨adds.wellFormed, fun entity member attached has listed =>
    adds.removable entity member attached has ((split _).mpr (Or.inr listed)), ?_⟩
  refine ⟨?_, adds.others.layers, adds.others.transform⟩
  rw [← adds.others.entities]
  refine List.map_congr_left fun entity member => Entity.without_congr fun attached has => ?_
  rw [split]
  exact (or_iff_right (gone entity member attached has)).symm

end AddsCapabilities
end Scene
end SceneEdit
