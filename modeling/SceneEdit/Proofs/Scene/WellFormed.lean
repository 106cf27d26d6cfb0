import Mathlib.Data.List.Flatten
import SceneEdit.Proofs.Scene.Change

/-!
# Well-formed scenes

The invariant of scenes: they are forests, their identities are distinct and below the counters
from which new ones are taken, and every entity has the transform exactly once if there is one.
Every structural change keeps it.

Changes come in four shapes, and each shape has one lemma that the changes share: new entities are
put at the end of the table (`WellFormed.append`), entities are dropped, one entity is moved, or
records change while identities and parents stay (`WellFormed.of_links`).
-/

namespace SceneEdit

/-- How many capabilities of a type an entity has. -/
def Entity.occurrences (entity : Entity) (fullName : TypeName) : Nat :=
  entity.capabilities.countP fun capability => capability.type.fullName = fullName

theorem Entity.occurrences_congr {entity other : Entity} (fullName : TypeName)
    (same : entity.capabilities.map Capability.type = other.capabilities.map Capability.type) :
    entity.occurrences fullName = other.occurrences fullName := by
  have counted := congrArg (List.countP fun type : Descriptor => type.fullName = fullName) same
  rwa [List.countP_map, List.countP_map] at counted

namespace Scene

/-- The identities of all capabilities, entity by entity. -/
def capabilityIds (scene : Scene) : List CapabilityId :=
  scene.entities.flatMap fun entity => entity.capabilities.map Capability.id

theorem mem_capabilityIds {scene : Scene} {id : CapabilityId} :
    id ∈ scene.capabilityIds ↔
      ∃ entity ∈ scene.entities, ∃ capability ∈ entity.capabilities, capability.id = id := by
  simp [capabilityIds, List.mem_flatMap]

theorem capabilityIds_modify {scene : Scene} {id : EntityId} (change : Entity → Entity) :
    (scene.modify id change).capabilityIds = scene.entities.flatMap fun entity =>
      (if entity.id = id then change entity else entity).capabilities.map Capability.id := by
  simp only [capabilityIds, modify, List.flatMap_map]

/-- A forest whose identities are distinct and below the counters, and whose entities all have the
transform once. -/
structure WellFormed (scene : Scene) : Prop extends Forest scene where
  ids_lt : ∀ entity ∈ scene.entities, entity.id.number < scene.nextEntity
  capabilities_nodup : scene.capabilityIds.Nodup
  capabilities_lt : ∀ id ∈ scene.capabilityIds, id.number < scene.nextCapability
  transform_once : ∀ type state, scene.transform = some (type, state) →
    ∀ entity ∈ scene.entities, entity.occurrences type.fullName = 1

theorem wellFormed_fresh (layers : List (String × Nat)) (transform : Option (Descriptor × Object)) :
    ({ layers, transform } : Scene).WellFormed where
  ids_nodup := List.nodup_nil
  parents_exist := by simp
  ranked := ⟨fun _ => 0, by simp⟩
  ids_lt := by simp
  capabilities_nodup := List.nodup_nil
  capabilities_lt := by simp [capabilityIds]
  transform_once := by simp

namespace WellFormed

variable {scene changed : Scene} {id : EntityId}

theorem lt_of_mem_ids (wf : scene.WellFormed) (member : id ∈ scene.entities.map Entity.id) :
    id.number < scene.nextEntity := by
  obtain ⟨entity, inside, rfl⟩ := List.mem_map.mp member
  exact wf.ids_lt entity inside

theorem parent_lt (wf : scene.WellFormed) {entity : Entity} (member : entity ∈ scene.entities)
    {parent : EntityId} (link : entity.parent = some parent) :
    parent.number < scene.nextEntity :=
  wf.lt_of_mem_ids (wf.parents_exist entity member parent link)

/-! ### New entities -/

/-- New entities at the end of the table: their identities and capabilities are new, their parents
are old or new, and every rank of the old entities extends to them. -/
theorem append (wf : scene.WellFormed) {made : List Entity} {nextEntity nextCapability : Int}
    (later : scene.nextEntity ≤ nextEntity)
    (laterCapability : scene.nextCapability ≤ nextCapability)
    (distinct : (made.map Entity.id).Nodup)
    (numbered : ∀ entity ∈ made,
      scene.nextEntity ≤ entity.id.number ∧ entity.id.number < nextEntity)
    (parents : ∀ entity ∈ made, ∀ parent, entity.parent = some parent →
      parent ∈ (scene.entities ++ made).map Entity.id)
    (extends_rank : ∀ rank : EntityId → Nat, (∀ entity ∈ scene.entities, ∀ parent,
        entity.parent = some parent → rank parent < rank entity.id) →
      ∃ rank' : EntityId → Nat, (∀ id, id.number < scene.nextEntity → rank' id = rank id) ∧
        ∀ entity ∈ made, ∀ parent, entity.parent = some parent → rank' parent < rank' entity.id)
    (capabilities : (made.flatMap fun entity => entity.capabilities.map Capability.id).Nodup)
    (numberedCapabilities : ∀ id ∈ made.flatMap fun entity => entity.capabilities.map Capability.id,
      scene.nextCapability ≤ id.number ∧ id.number < nextCapability)
    (transforms : ∀ type state, scene.transform = some (type, state) →
      ∀ entity ∈ made, entity.occurrences type.fullName = 1) :
    ({ scene with
      entities := scene.entities ++ made, nextEntity, nextCapability } : Scene).WellFormed where
  ids_nodup := by
    rw [List.map_append]
    apply wf.ids_nodup.append distinct
    intro id old new
    obtain ⟨entity, inside, rfl⟩ := List.mem_map.mp new
    have := wf.lt_of_mem_ids old
    have := (numbered entity inside).1
    omega
  parents_exist := by
    intro entity member parent link
    rcases List.mem_append.mp member with old | new
    · rw [List.map_append]
      exact List.mem_append_left _ (wf.parents_exist entity old parent link)
    · exact parents entity new parent link
  ranked := by
    obtain ⟨rank, falls⟩ := wf.ranked
    obtain ⟨rank', agrees, falls'⟩ := extends_rank rank falls
    refine ⟨rank', fun entity member parent link => ?_⟩
    rcases List.mem_append.mp member with old | new
    · rw [agrees _ (wf.ids_lt entity old), agrees _ (wf.parent_lt old link)]
      exact falls entity old parent link
    · exact falls' entity new parent link
  ids_lt := by
    intro entity member
    rcases List.mem_append.mp member with old | new
    · exact Int.lt_of_lt_of_le (wf.ids_lt entity old) later
    · exact (numbered entity new).2
  capabilities_nodup := by
    simp only [capabilityIds, List.flatMap_append]
    apply wf.capabilities_nodup.append capabilities
    intro id old new
    have := wf.capabilities_lt id old
    have := (numberedCapabilities id new).1
    omega
  capabilities_lt := by
    intro id member
    simp only [capabilityIds, List.flatMap_append] at member
    rcases List.mem_append.mp member with old | new
    · exact Int.lt_of_lt_of_le (wf.capabilities_lt id old) laterCapability
    · exact (numberedCapabilities id new).2
  transform_once := by
    intro type state given entity member
    rcases List.mem_append.mp member with old | new
    · exact wf.transform_once type state given entity old
    · exact transforms type state given entity new

theorem map_id_birthCapabilities (scene : Scene) :
    scene.birthCapabilities.map Capability.id =
      countedFrom scene.nextCapability scene.birthCapabilities.length := by
  rw [birthCapabilities]
  cases scene.transform <;> simp [countedFrom]

theorem occurrences_newborn {name : String} {parent : Option EntityId} {type : Descriptor}
    {state : Object} (given : scene.transform = some (type, state)) :
    (scene.newborn name parent).occurrences type.fullName = 1 := by
  simp [Entity.occurrences, newborn, birthCapabilities, given]

theorem create (wf : scene.WellFormed) {name : String} {parent : Option EntityId}
    (made : scene.create name parent = .ok (id, changed)) : changed.WellFormed := by
  obtain ⟨known, rfl, rfl⟩ := create_eq_ok_iff.mp made
  have caps : [scene.newborn name parent].flatMap
      (fun entity => entity.capabilities.map Capability.id) =
      countedFrom scene.nextCapability scene.birthCapabilities.length := by
    simp only [List.flatMap_cons, List.flatMap_nil, List.append_nil]
    exact map_id_birthCapabilities scene
  refine wf.append (by omega) (by omega) (by simp) ?_ ?_ ?_ ?_ ?_ ?_
  · intro entity member
    obtain rfl := List.mem_singleton.mp member
    simp only [newborn]
    omega
  · intro entity member above link
    obtain rfl := List.mem_singleton.mp member
    rw [List.map_append]
    exact List.mem_append_left _ (known above link)
  · intro rank _
    refine ⟨fun id => if id.number < scene.nextEntity then rank id
      else (parent.map rank).getD 0 + 1, fun id old => if_pos old, ?_⟩
    intro entity member above link
    obtain rfl := List.mem_singleton.mp member
    have old := wf.lt_of_mem_ids (known above link)
    simp only [newborn] at link ⊢
    simp [old, link]
  · rw [caps]
    exact nodup_countedFrom _ _
  · intro id member
    rw [caps] at member
    exact mem_countedFrom member
  · intro type state given entity member
    obtain rfl := List.mem_singleton.mp member
    exact occurrences_newborn given

/-! ### Copies -/

theorem mem_originals (wf : scene.WellFormed) {entity : Entity} :
    entity ∈ scene.originals id ↔
      entity ∈ scene.entities ∧ entity.id ∈ scene.subtree id := by
  simp only [originals, List.mem_filterMap, entity?_eq_some_iff wf.ids_nodup]
  constructor
  · rintro ⟨_, below, member, rfl⟩
    exact ⟨member, below⟩
  · rintro ⟨member, below⟩
    exact ⟨entity.id, below, member, rfl⟩

/-- The originals of a copy are the entities of the subtree, in its order. -/
theorem map_id_originals (wf : scene.WellFormed) (exist : id ∈ scene.entities.map Entity.id) :
    (scene.originals id).map Entity.id = scene.subtree id := by
  have all : ∀ x ∈ scene.subtree id, (scene.entity? x).map Entity.id = some x := by
    intro x below
    have member := wf.mem_ids_of_below exist (wf.mem_subtree_iff.mp below)
    obtain ⟨entity, found⟩ := Option.isSome_iff_exists.mp (entity?_isSome_iff.mpr member)
    rw [found, Option.map_some, (mem_of_entity? found).2]
  rw [originals, List.map_filterMap]
  exact (List.filterMap_congr all).trans List.filterMap_some

/-- A copy is numbered by the place of its original, which can thereby be told from it. -/
theorem copyOf?_eq_some {sources : List EntityId} {next : Int} {source copy : EntityId}
    (given : copyOf? sources next source = some copy) :
    next ≤ copy.number ∧ copy.number < next + sources.length ∧
      sources[(copy.number - next).toNat]? = some source := by
  rw [copyOf?] at given
  cases found : sources.idxOf? source with
  | none => simp [found] at given
  | some i =>
      obtain ⟨small, here, _⟩ := List.idxOf?_eq_some_iff.mp found
      obtain rfl : (⟨next + i⟩ : EntityId) = copy := by simpa [found] using given
      have place : (next + (i : Int) - next).toNat = i := by omega
      refine ⟨by simp only; omega, by simp only; omega, ?_⟩
      simp only [place, List.getElem?_eq_getElem small, here]

theorem exists_copyOf? {sources : List EntityId} (next : Int) {source : EntityId}
    (member : source ∈ sources) : ∃ copy, copyOf? sources next source = some copy := by
  obtain ⟨i, found⟩ := Option.isSome_iff_exists.mp (List.isSome_idxOf?.mpr member)
  exact ⟨⟨next + i⟩, by simp [copyOf?, found]⟩

/-- The identity of the copy of an entity in the subtree. -/
theorem copyOf?_original (wf : scene.WellFormed) (name : String) {entity : Entity}
    (member : entity ∈ scene.originals id) :
    copyOf? (scene.subtree id) scene.nextEntity entity.id =
      some (scene.renamed id name entity).id := by
  obtain ⟨copy, found⟩ := exists_copyOf? scene.nextEntity (wf.mem_originals.mp member).2
  simp [renamed, found]

theorem nodup_copies (wf : scene.WellFormed) (exist : id ∈ scene.entities.map Entity.id)
    (name : String) (next : Int) :
    ((copies (scene.renamed id name) next (scene.originals id)).map Entity.id).Nodup := by
  rw [map_id_copies]
  have distinct := wf.nodup_subtree id
  rw [← wf.map_id_originals exist] at distinct
  apply distinct.of_map.map_on
  intro a ha b hb same
  refine List.inj_on_of_nodup_map distinct ha hb ?_
  have first := (copyOf?_eq_some (wf.copyOf?_original name ha)).2.2
  have second := (copyOf?_eq_some (wf.copyOf?_original name hb)).2.2
  rw [same, second] at first
  exact (Option.some.inj first).symm

/-- The parent of a copy is the parent of the original for the first one, and the copy of it for
all others. -/
theorem parent_renamed {name : String} {entity : Entity} {parent : EntityId}
    (link : (scene.renamed id name entity).parent = some parent) :
    entity.id = id ∧ entity.parent = some parent ∨
      ∃ original, entity.parent = some original ∧
        copyOf? (scene.subtree id) scene.nextEntity original = some parent := by
  rw [renamed] at link
  dsimp only at link
  split at link
  · exact Or.inl ⟨‹_›, link⟩
  · exact Or.inr (Option.bind_eq_some_iff.mp link)

theorem duplicate (wf : scene.WellFormed) {name : String} {copy : EntityId}
    (made : scene.duplicate id name = .ok (copy, changed)) : changed.WellFormed := by
  obtain ⟨exist, rfl, rfl⟩ := duplicate_eq_ok_iff.mp made
  rw [foldl_capabilities]
  have caps := flatMap_copies (scene.renamed id name) scene.nextCapability (scene.originals id)
  refine wf.append (by omega) (by omega) (wf.nodup_copies exist name _) ?_ ?_ ?_ ?_ ?_ ?_
  · intro entity member
    obtain ⟨original, inside, same, _⟩ := exists_of_mem_copies member
    obtain ⟨low, high, _⟩ := copyOf?_eq_some (wf.copyOf?_original name inside)
    rw [same]
    exact ⟨low, high⟩
  · intro entity member parent link
    obtain ⟨original, inside, _, sameParent, _⟩ := exists_of_mem_copies member
    rw [List.map_append, List.mem_append, map_id_copies]
    rw [sameParent] at link
    rcases parent_renamed link with ⟨_, up⟩ | ⟨source, _, copied⟩
    · exact Or.inl (wf.parents_exist original (wf.mem_originals.mp inside).1 parent up)
    · have below := List.mem_of_getElem? (copyOf?_eq_some copied).2.2
      rw [← wf.map_id_originals exist] at below
      obtain ⟨entity', inside', rfl⟩ := List.mem_map.mp below
      rw [wf.copyOf?_original name inside'] at copied
      exact Or.inr (List.mem_map.mpr ⟨entity', inside', Option.some.inj copied⟩)
  · -- A copy has the rank of its original.
    intro rank falls
    refine ⟨fun x => if x.number < scene.nextEntity then rank x
      else (((scene.subtree id)[(x.number - scene.nextEntity).toNat]?).map rank).getD 0,
      fun x old => if_pos old, ?_⟩
    have copied : ∀ source copy, copyOf? (scene.subtree id) scene.nextEntity source = some copy →
        (if copy.number < scene.nextEntity then rank copy
          else (((scene.subtree id)[(copy.number - scene.nextEntity).toNat]?).map rank).getD 0) =
          rank source := by
      intro source copy given
      obtain ⟨low, _, here⟩ := copyOf?_eq_some given
      rw [if_neg (Int.not_lt.mpr low), here]
      rfl
    intro entity member parent link
    obtain ⟨original, inside, same, sameParent, _⟩ := exists_of_mem_copies member
    have old := (wf.mem_originals.mp inside).1
    dsimp only
    rw [same, copied _ _ (wf.copyOf?_original name inside)]
    rw [sameParent] at link
    rcases parent_renamed link with ⟨_, up⟩ | ⟨source, up, given⟩
    · rw [if_pos (wf.parent_lt old up)]
      exact falls original old parent up
    · rw [copied _ _ given]
      exact falls original old source up
  · rw [caps]
    exact nodup_countedFrom _ _
  · intro capability member
    rw [caps] at member
    exact mem_countedFrom member
  · intro type state given entity member
    obtain ⟨original, inside, _, _, types⟩ := exists_of_mem_copies member
    rw [Entity.occurrences_congr _ types]
    exact wf.transform_once type state given original (wf.mem_originals.mp inside).1

/-! ### Dropped entities -/

/-- Whatever stays keeps its parent, since the children of what is dropped are dropped with it. -/
theorem destroy (wf : scene.WellFormed) (done : scene.destroy id = .ok changed) :
    changed.WellFormed := by
  obtain ⟨_, rfl⟩ := destroy_eq_ok_iff.mp done
  have kept : (scene.entities.filter fun entity => !(scene.subtree id).contains entity.id).Sublist
      scene.entities := List.filter_sublist
  have capsKept := kept.flatMap fun entity => entity.capabilities.map Capability.id
  refine ⟨⟨(kept.map Entity.id).nodup wf.ids_nodup, ?_, ?_⟩, ?_, capsKept.nodup
    wf.capabilities_nodup, ?_, ?_⟩
  · intro entity member parent link
    obtain ⟨old, stays⟩ := List.mem_filter.mp member
    obtain ⟨above, exist, rfl⟩ := List.mem_map.mp (wf.parents_exist entity old parent link)
    refine List.mem_map.mpr ⟨above, List.mem_filter.mpr ⟨exist, ?_⟩, rfl⟩
    simp only [Bool.not_eq_true', ← Bool.not_eq_true, List.contains_iff_mem,
      wf.mem_subtree_iff] at stays ⊢
    refine fun below => stays (below.head ?_)
    exact wf.parentOf?_eq_some_iff.mpr (mem_childIds.mpr ⟨entity, old, rfl, link⟩)
  · obtain ⟨rank, falls⟩ := wf.ranked
    exact ⟨rank, fun entity member => falls entity (kept.subset member)⟩
  · exact fun entity member => wf.ids_lt entity (kept.subset member)
  · exact fun capability member => wf.capabilities_lt capability (capsKept.subset member)
  · exact fun type state given entity member =>
      wf.transform_once type state given entity (kept.subset member)

/-! ### A moved entity -/

theorem filter_id_eq {entities : List Entity} (distinct : (entities.map Entity.id).Nodup)
    {entity : Entity} (member : entity ∈ entities) :
    entities.filter (fun other => other.id = entity.id) = [entity] := by
  induction entities with
  | nil => cases member
  | cons first rest ih =>
      obtain ⟨apart, distinct⟩ := List.nodup_cons.mp distinct
      rcases List.mem_cons.mp member with rfl | member
      · rw [List.filter_cons_of_pos (by simp), List.filter_eq_nil_iff.mpr]
        intro other inside same
        exact apart (List.mem_map.mpr ⟨other, inside, by simpa using same⟩)
      · rw [List.filter_cons_of_neg, ih distinct member]
        simp only [decide_eq_true_eq]
        exact fun same => apart (List.mem_map.mpr ⟨entity, member, same.symm⟩)

/-- Taking an entity out and putting it at the end rearranges the table. -/
theorem perm_move (wf : scene.WellFormed) {entity : Entity} (member : entity ∈ scene.entities) :
    ((scene.entities.filter fun other => other.id ≠ entity.id) ++ [entity]).Perm
      scene.entities := by
  have halves := List.filter_append_perm (fun other : Entity => decide (other.id ≠ entity.id))
    scene.entities
  have single := filter_id_eq wf.ids_nodup member
  simpa only [ne_eq, decide_not, Bool.not_not, single] using halves

theorem setParent (wf : scene.WellFormed) {parent : Option EntityId}
    (done : scene.setParent id parent = .ok changed) : changed.WellFormed := by
  obtain ⟨entity, found, allowed, rfl⟩ := setParent_eq_ok_iff.mp done
  obtain ⟨member, rfl⟩ := mem_of_entity? found
  have rearranged := wf.perm_move member
  have ids : ((scene.moved entity parent).map Entity.id).Perm (scene.entities.map Entity.id) := by
    have := rearranged.map Entity.id
    simpa only [moved, List.map_append, List.map_cons, List.map_nil] using this
  have caps : ((scene.moved entity parent).flatMap
      fun other => other.capabilities.map Capability.id).Perm scene.capabilityIds := by
    have := rearranged.flatMap_right fun other => other.capabilities.map Capability.id
    simpa only [moved, capabilityIds, List.flatMap_append, List.flatMap_cons,
      List.flatMap_nil] using this
  refine ⟨⟨ids.nodup_iff.mpr wf.ids_nodup, ?_, ?_⟩, ?_, caps.nodup_iff.mpr wf.capabilities_nodup,
    ?_, ?_⟩
  · intro other inside above link
    apply ids.mem_iff.mpr
    rcases mem_moved.mp inside with ⟨old, _⟩ | rfl
    · exact wf.parents_exist other old above link
    · exact (allowed above link).1
  · -- What lies below the moved entity is lifted above the rank of the new parent.
    obtain ⟨rank, falls⟩ := wf.ranked
    refine ⟨fun x => if scene.isWithin x entity.id then
      rank x + ((parent.map rank).getD 0 + 1) else rank x, ?_⟩
    intro other inside above link
    dsimp only
    rcases mem_moved.mp inside with ⟨old, different⟩ | rfl
    · have lower := falls other old above link
      have step : scene.isWithin other.id entity.id = scene.isWithin above entity.id := by
        have up := wf.parentOf?_eq_some_iff.mpr (mem_childIds.mpr ⟨other, old, rfl, link⟩)
        rw [Bool.eq_iff_iff, wf.isWithin_iff, wf.isWithin_iff, below_iff_of_parent up]
        simp [different]
      rw [step]
      split <;> omega
    · have outside := (allowed above link).2
      have self : scene.isWithin entity.id entity.id = true := wf.isWithin_iff.mpr .refl
      simp only at link
      simp only [outside, self, link, if_true, Option.map_some, Option.getD_some,
        Bool.false_eq_true, if_false]
      omega
  · intro other inside
    rcases mem_moved.mp inside with ⟨old, _⟩ | rfl
    · exact wf.ids_lt other old
    · exact wf.ids_lt entity member
  · exact fun capability inside => wf.capabilities_lt capability (caps.mem_iff.mp inside)
  · intro type state given other inside
    rcases mem_moved.mp inside with ⟨old, _⟩ | rfl
    · exact wf.transform_once type state given other old
    · exact wf.transform_once type state given entity member

/-! ### Changed records -/

/-- Records may change in everything but identity and parent, as long as capabilities stay in
order. -/
theorem of_links (wf : scene.WellFormed)
    (links : changed.entities.map (fun entity => (entity.id, entity.parent)) =
      scene.entities.map fun entity => (entity.id, entity.parent))
    (next : changed.nextEntity = scene.nextEntity)
    (capabilities : changed.capabilityIds.Nodup)
    (numbered : ∀ id ∈ changed.capabilityIds, id.number < changed.nextCapability)
    (once : ∀ type state, changed.transform = some (type, state) →
      ∀ entity ∈ changed.entities, entity.occurrences type.fullName = 1) :
    changed.WellFormed := by
  have old : ∀ entity ∈ changed.entities, ∃ entity' ∈ scene.entities,
      entity'.id = entity.id ∧ entity'.parent = entity.parent := by
    intro entity member
    have linked :=
      List.mem_map_of_mem (f := fun entity : Entity => (entity.id, entity.parent)) member
    rw [links] at linked
    obtain ⟨entity', member', same⟩ := List.mem_map.mp linked
    exact ⟨entity', member', congrArg Prod.fst same, congrArg Prod.snd same⟩
  have ids : changed.entities.map Entity.id = scene.entities.map Entity.id := by
    have := congrArg (List.map Prod.fst) links
    simpa only [List.map_map, Function.comp_def] using this
  refine ⟨⟨by rw [ids]; exact wf.ids_nodup, ?_, ?_⟩, ?_, capabilities, numbered, once⟩
  · intro entity member parent link
    obtain ⟨entity', member', _, same⟩ := old entity member
    rw [ids]
    exact wf.parents_exist entity' member' parent (same.trans link)
  · obtain ⟨rank, falls⟩ := wf.ranked
    refine ⟨rank, fun entity member parent link => ?_⟩
    obtain ⟨entity', member', sameId, same⟩ := old entity member
    rw [← sameId]
    exact falls entity' member' parent (same.trans link)
  · intro entity member
    obtain ⟨entity', member', same, _⟩ := old entity member
    rw [← same, next]
    exact wf.ids_lt entity' member'

theorem attach (wf : scene.WellFormed) {type : Descriptor} {state : Object}
    {capability : CapabilityId} (done : scene.attach id type state = .ok (capability, changed)) :
    changed.WellFormed := by
  obtain ⟨_, other, rfl, rfl⟩ := attach_eq_ok_iff.mp done
  have small : ∀ entity ∈ scene.entities, ∀ c ∈ entity.capabilities.map Capability.id,
      c.number < scene.nextCapability := fun entity member c inside =>
    wf.capabilities_lt c (List.mem_flatMap.mpr ⟨entity, member, inside⟩)
  -- An entity has its old capabilities, and the new one if it is the entity asked for.
  have caps : ∀ entity : Entity, ∀ c, c ∈ (if entity.id = id then
      entity.plus ⟨⟨scene.nextCapability⟩, type, state⟩ else entity).capabilities.map
        Capability.id ↔ c ∈ entity.capabilities.map Capability.id ∨
          entity.id = id ∧ c = ⟨scene.nextCapability⟩ := by
    intro entity c
    by_cases here : entity.id = id
    · rw [if_pos here, Entity.plus_capabilities, List.map_append, List.mem_append]
      simp only [List.map_cons, List.map_nil, List.mem_singleton, here, true_and]
    · rw [if_neg here]
      simp only [here, false_and, or_false]
  obtain ⟨each, apart⟩ := List.nodup_flatMap.mp wf.capabilities_nodup
  refine wf.of_links (map_modify _ fun _ => rfl) rfl ?_ ?_ ?_
  · change (scene.modify id _).capabilityIds.Nodup
    rw [capabilityIds_modify, List.nodup_flatMap]
    refine ⟨fun entity member => ?_, ?_⟩
    · split
      · rw [Entity.plus_capabilities, List.map_append]
        apply (each entity member).append (List.nodup_singleton _)
        intro c old new
        obtain rfl := List.mem_singleton.mp new
        exact Int.lt_irrefl _ (small entity member _ old)
      · exact each entity member
    · refine (List.pairwise_map.mp wf.ids_nodup |>.and apart).imp_of_mem ?_
      rintro a b inA inB ⟨different, disjoint⟩ c ha hb
      rcases (caps a c).mp ha with oldA | ⟨hereA, rfl⟩ <;>
        rcases (caps b _).mp hb with oldB | ⟨hereB, newB⟩
      · exact disjoint oldA oldB
      · rw [newB] at oldA
        exact Int.lt_irrefl _ (small a inA _ oldA)
      · exact Int.lt_irrefl _ (small b inB _ oldB)
      · exact different (hereA.trans hereB.symm)
  · intro c member
    change c ∈ (scene.modify id _).capabilityIds at member
    rw [capabilityIds_modify] at member
    obtain ⟨entity, inside, member⟩ := List.mem_flatMap.mp member
    rcases (caps entity c).mp member with old | ⟨_, rfl⟩
    · exact Int.lt_add_one_of_le (Int.le_of_lt (small entity inside c old))
    · exact Int.lt_succ _
  · intro transform template given entity member
    obtain ⟨old, inside, rfl⟩ := mem_modify.mp member
    have once := wf.transform_once transform template given old inside
    have different : ¬ type.fullName = transform.fullName := by
      have : scene.transform = some (transform, template) := given
      simp only [isTransform, this, decide_eq_false_iff_not] at other
      exact fun same => other same.symm
    split
    · simpa [Entity.occurrences, different] using once
    · exact once

theorem detach (wf : scene.WellFormed) {capability : CapabilityId}
    (done : scene.detach id capability = .ok changed) : changed.WellFormed := by
  obtain ⟨entity, attached, found, here, other, rfl⟩ := detach_eq_ok_iff.mp done
  obtain ⟨member, rfl⟩ := mem_of_entity? found
  have sub : (scene.modify entity.id fun entity => entity.minus capability).capabilityIds.Sublist
      scene.capabilityIds := by
    rw [capabilityIds_modify]
    apply List.Sublist.flatMap_right _
    intro old _
    split
    · exact List.filter_sublist.map _
    · exact List.Sublist.refl _
  refine wf.of_links (map_modify _ fun _ => rfl) rfl (sub.nodup wf.capabilities_nodup)
    (fun c inside => wf.capabilities_lt c (sub.subset inside)) ?_
  intro transform template given changed stays
  obtain ⟨old, inside, rfl⟩ := mem_modify.mp stays
  have once := wf.transform_once transform template given old inside
  split
  · -- The capability that goes is not the transform, so the transform is not among what goes.
    rename_i same
    obtain rfl := List.inj_on_of_nodup_map wf.ids_nodup inside member same
    have distinct := (List.nodup_flatMap.mp wf.capabilities_nodup).1 old inside
    rw [← once, Entity.occurrences, Entity.minus_capabilities, List.countP_filter]
    apply List.countP_congr
    intro c has
    simp only [ne_eq, decide_not, Bool.and_eq_true, decide_eq_true_eq, Bool.not_eq_true',
      decide_eq_false_iff_not, and_iff_left_iff_imp]
    rintro isTransform rfl
    have given' : scene.transform = some (transform, template) := given
    obtain ⟨attachedHere, sameId⟩ := Entity.mem_of_attached? here
    have same := List.inj_on_of_nodup_map distinct attachedHere has sameId
    subst same
    simp [Scene.isTransform, given', isTransform] at other
  · exact once

end WellFormed

/-- A change of a record that leaves alone what the hierarchy and the identities rest on. -/
structure RecordEdit where
  apply : Entity → Entity
  keeps_id : ∀ entity, (apply entity).id = entity.id
  keeps_parent : ∀ entity, (apply entity).parent = entity.parent
  keeps_capabilities : ∀ entity,
    (apply entity).capabilities.map (fun capability => (capability.id, capability.type)) =
      entity.capabilities.map fun capability => (capability.id, capability.type)

/-- Writing the state of a capability. -/
def RecordEdit.setState (capability : CapabilityId) (state : Object) : RecordEdit where
  apply entity := entity.setState capability state
  keeps_id _ := rfl
  keeps_parent _ := rfl
  keeps_capabilities entity := by
    simp only [Entity.setState, List.map_map]
    apply List.map_congr_left
    intro attached _
    simp only [Function.comp_apply]
    split <;> rfl

theorem WellFormed.edit {scene : Scene} (wf : scene.WellFormed) (id : EntityId)
    (edit : RecordEdit) : (scene.modify id edit.apply).WellFormed := by
  have ids : ∀ entity, (edit.apply entity).capabilities.map Capability.id =
      entity.capabilities.map Capability.id := by
    intro entity
    have := congrArg (List.map Prod.fst) (edit.keeps_capabilities entity)
    simpa only [List.map_map, Function.comp_def] using this
  have types : ∀ entity, (edit.apply entity).capabilities.map Capability.type =
      entity.capabilities.map Capability.type := by
    intro entity
    have := congrArg (List.map Prod.snd) (edit.keeps_capabilities entity)
    simpa only [List.map_map, Function.comp_def] using this
  have caps : (scene.modify id edit.apply).capabilityIds = scene.capabilityIds := by
    rw [capabilityIds_modify]
    apply List.flatMap_congr
    intro entity _
    split
    · exact ids entity
    · rfl
  refine wf.of_links (map_modify _ fun entity => ?_) rfl (by rw [caps]; exact wf.capabilities_nodup)
    (by rw [caps]; exact wf.capabilities_lt) ?_
  · rw [edit.keeps_id, edit.keeps_parent]
  · intro type state given entity member
    obtain ⟨old, inside, rfl⟩ := mem_modify.mp member
    have once := wf.transform_once type state given old inside
    split
    · rw [Entity.occurrences_congr _ (types old)]
      exact once
    · exact once

end Scene
end SceneEdit
