import SceneEdit.Proofs.Query.Search
import SceneEdit.Proofs.Session.Atomic
import SceneEdit.Proofs.Session.Reachable
import SceneEdit.Proofs.Types.Recall

/-!
# Which entities a search finds

Without a scope a search runs over a depth-first enumeration of the whole scene, from which the
inactive entities are taken out at the end. With a scope it goes down from the root with a stack of
entities still to be visited and leaves out inactive children as it goes. Both come to the same
membership: the entities in scope that are listed (`Host.mem_pool_iff`), because an entity with an
inactive ancestor is inactive itself. What a strategy picks from them is decided by the record of
each entity alone (`Host.mem_run_iff`).
-/

namespace SceneEdit

namespace Scene

open Relation (ReflTransGen)

variable {scene : Scene}

/-! ### Activity -/

namespace Forest

variable (forest : scene.Forest) {includeInactive : Bool}
include forest

/-- An entity is active if it and everything above it exists and has its own flag set. -/
theorem isActive_iff {id : EntityId} :
    scene.isActive id = true ↔ ∀ above, scene.Below id above →
      ∃ entity, scene.entity? above = some entity ∧ entity.active = true := by
  rw [isActive, List.all_eq_true]
  refine forall_congr' fun above => ?_
  rw [forest.mem_lineage_iff]
  refine imp_congr_right fun _ => ?_
  cases scene.entity? above with
  | none => simp
  | some entity => simp

theorem isListed_iff {id : EntityId} :
    scene.isListed includeInactive id = true ↔ (includeInactive = true ∨
      ∀ above, scene.Below id above →
        ∃ entity, scene.entity? above = some entity ∧ entity.active = true) := by
  rw [isListed, Bool.or_eq_true, forest.isActive_iff]

/-- What a listed entity lies below is listed. -/
theorem isListed_of_below {id above : EntityId}
    (listed : scene.isListed includeInactive id = true) (below : scene.Below id above) :
    scene.isListed includeInactive above = true := by
  rw [forest.isListed_iff] at listed ⊢
  exact listed.imp_right fun active top chain => active top (below.trans chain)

/-! ### Enumerating the scene -/

/-- Every entity lies below a root. -/
theorem exists_root {id : EntityId} (exist : id ∈ scene.entities.map Entity.id) :
    ∃ root ∈ scene.childIds none, scene.Below id root := by
  induction id using forest.wellFounded_parent.induction with
  | _ id ih =>
      obtain ⟨entity, member, rfl⟩ := List.mem_map.mp exist
      cases link : entity.parent with
      | none => exact ⟨entity.id, mem_childIds.mpr ⟨entity, member, rfl, link⟩, .refl⟩
      | some parent =>
          have up : scene.parentOf? entity.id = some parent :=
            forest.parentOf?_eq_some_iff.mpr (mem_childIds.mpr ⟨entity, member, rfl, link⟩)
          obtain ⟨root, isRoot, below⟩ :=
            ih parent up (forest.parents_exist entity member parent link)
          exact ⟨root, isRoot, below.head up⟩

theorem mem_allEntities_iff {id : EntityId} :
    id ∈ scene.allEntities includeInactive ↔
      id ∈ scene.entities.map Entity.id ∧ scene.isListed includeInactive id = true := by
  constructor
  · exact fun member => ⟨Host.allEntities_subset _ member, List.of_mem_filter member⟩
  · rintro ⟨exist, listed⟩
    obtain ⟨root, isRoot, below⟩ := forest.exists_root exist
    exact List.mem_filter.mpr
      ⟨List.mem_flatMap.mpr ⟨root, isRoot, forest.mem_subtree_iff.mpr below⟩, listed⟩

/-! ### Going down along listed children -/

theorem mem_children_iff {child parent : EntityId} :
    child ∈ scene.children includeInactive parent ↔
      scene.parentOf? child = some parent ∧ scene.isListed includeInactive child = true := by
  rw [children, List.mem_filter, forest.parentOf?_eq_some_iff]

theorem exists_children_height (includeInactive : Bool) :
    ∃ height : EntityId → Nat, (∀ id, height id ≤ scene.entities.length) ∧
      ∀ parent, ∀ child ∈ scene.children includeInactive parent, height child < height parent := by
  obtain ⟨height, small, falls⟩ := forest.exists_height
  exact ⟨height, small, fun parent child link => falls parent child (List.mem_of_mem_filter link)⟩

/-- Leaving out inactive children on the way loses nothing that is active further down. -/
theorem reflTransGen_children_of_below {id root : EntityId} (below : scene.Below id root)
    (listed : scene.isListed includeInactive id = true) :
    ReflTransGen (fun child parent => child ∈ scene.children includeInactive parent) id root := by
  induction below using ReflTransGen.head_induction_on with
  | refl => exact .refl
  | head link _ ih =>
      have above := forest.isListed_of_below listed (.single link)
      exact (ih above).head (forest.mem_children_iff.mpr ⟨link, listed⟩)

theorem below_of_reflTransGen_children {id root : EntityId}
    (chain : ReflTransGen (fun child parent => child ∈ scene.children includeInactive parent)
      id root) : scene.Below id root :=
  ReflTransGen.mono (fun _ _ link => (forest.mem_children_iff.mp link).1) _ _ chain

end Forest

/-- A stack of entities to be visited runs empty: the entity on top is taken off, its children are
listed, and they are put on the stack, the first one on top. -/
inductive Drains (children : EntityId → List EntityId) : List EntityId → List EntityId → Prop
  | done : Drains children [] []
  | visit {parent : EntityId} {stack listed : List EntityId}
      (rest : Drains children (children parent ++ stack) listed) :
      Drains children (parent :: stack) (children parent ++ listed)

variable {children : EntityId → List EntityId} {stack listed : List EntityId}

/-- Entities on top of a stack are visited one after the other, each with what lies below it. -/
theorem Drains.append {lists : EntityId → List EntityId} (rest : Drains children stack listed)
    (tops : List EntityId) (each : ∀ top ∈ tops, ∀ {stack listed : List EntityId},
      Drains children stack listed → Drains children (top :: stack) (lists top ++ listed)) :
    Drains children (tops ++ stack) (tops.flatMap lists ++ listed) := by
  induction tops with
  | nil => exact rest
  | cons top tops ih =>
      obtain ⟨first, others⟩ := List.forall_mem_cons.mp each
      rw [List.cons_append, List.flatMap_cons, List.append_assoc]
      exact first (ih others)

/-- A stack lists the children of all entities that a walk visits, in the order of the walk. -/
theorem Drains.walk (height : EntityId → Nat)
    (falls : ∀ parent, ∀ child ∈ children parent, height child < height parent) {bound : Nat}
    {id : EntityId} (enough : height id ≤ bound) (rest : Drains children stack listed) :
    Drains children (id :: stack) ((Scene.walk children bound id).flatMap children ++ listed) := by
  induction bound generalizing id stack listed with
  | zero =>
      have leaf : children id = [] := by
        apply List.eq_nil_iff_forall_not_mem.mpr
        intro child member
        have := falls id child member
        omega
      have visited : Drains children (id :: stack) (children id ++ listed) :=
        .visit (by rwa [leaf])
      rwa [Scene.walk, List.flatMap_singleton]
  | succ bound ih =>
      rw [Scene.walk, List.flatMap_cons, List.flatMap_assoc, List.append_assoc]
      refine .visit (rest.append (children id) fun child member _ _ rest => ?_)
      have := falls id child member
      exact ih (by omega) rest

end Scene

theorem Entity.hasCapability_iff {entity : Entity} {fullName : TypeName} :
    entity.hasCapability fullName = true ↔
      ∃ capability ∈ entity.capabilities, capability.type.fullName = fullName := by
  simp [hasCapability, capability?, List.find?_isSome]

namespace Host

open Relation (ReflTransGen)

variable {host : Host} {scene : Scene}

/-! ### Pools -/

/-- The search below a scope ends and has then listed the pool. -/
theorem scopePool_drains (forest : scene.Forest) (includeInactive : Bool) (root : EntityId) :
    ∃ listed, Scene.Drains (scene.children includeInactive) [root] listed ∧
      scopePool scene includeInactive root =
        [root].filter (scene.isListed includeInactive) ++ listed := by
  obtain ⟨height, small, falls⟩ := forest.exists_children_height includeInactive
  have ends := Scene.Drains.done.walk height falls (small root)
  rw [List.append_nil] at ends
  exact ⟨_, ends, rfl⟩

theorem mem_scopePool_iff (forest : scene.Forest) {includeInactive : Bool} {root id : EntityId} :
    id ∈ scopePool scene includeInactive root ↔
      scene.Below id root ∧ scene.isListed includeInactive id = true := by
  obtain ⟨height, small, falls⟩ := forest.exists_children_height includeInactive
  have visited : ∀ parent,
      parent ∈ Scene.walk (scene.children includeInactive) scene.entities.length root ↔
        ReflTransGen (fun child parent => child ∈ scene.children includeInactive parent)
          parent root :=
    fun _ => Scene.mem_walk_iff height falls (small root)
  simp only [scopePool, List.mem_append, List.mem_filter, List.mem_singleton, List.mem_flatMap,
    visited]
  constructor
  · rintro (⟨rfl, listed⟩ | ⟨parent, chain, link⟩)
    · exact ⟨.refl, listed⟩
    · obtain ⟨up, listed⟩ := forest.mem_children_iff.mp link
      exact ⟨(forest.below_of_reflTransGen_children chain).head up, listed⟩
  · rintro ⟨below, listed⟩
    rcases (forest.reflTransGen_children_of_below below listed).cases_head with
      rfl | ⟨parent, link, chain⟩
    · exact Or.inl ⟨rfl, listed⟩
    · exact Or.inr ⟨parent, chain, link⟩

/-- Both pools hold the entities in scope that are listed. -/
theorem mem_pool_iff (forest : scene.Forest) {includeInactive : Bool} {scope : Option EntityId}
    (known : ∀ root ∈ scope, root ∈ scene.entities.map Entity.id) {id : EntityId} :
    id ∈ pool scene includeInactive scope ↔ id ∈ scene.entities.map Entity.id ∧
      (∀ root ∈ scope, scene.Below id root) ∧ scene.isListed includeInactive id = true := by
  cases scope with
  | none => simp [pool, forest.mem_allEntities_iff]
  | some root =>
      simp only [pool, mem_scopePool_iff forest, Option.mem_some_iff, forall_eq']
      exact ⟨fun ⟨below, listed⟩ => ⟨forest.mem_ids_of_below (known root rfl) below, below, listed⟩,
        And.right⟩

/-! ### Criteria -/

/-- What an entity has to be or to have for a term, under each strategy that has one criterion. -/
inductive Meets (host : Host) (scene : Scene) (cache : TypeCache) (scope : Option EntityId)
    (term : String) (entity : Entity) : Strategy → Prop
  /-- A term that is no integer of 64 bits is the identity of no entity. -/
  | byId (same : Numeral.int64? term.toList = some entity.id.number) :
      Meets host scene cache scope term entity .byId
  | byName (same : entity.name = term) : Meets host scene cache scope term entity .byName
  | byTag (same : entity.tag = term) : Meets host scene cache scope term entity .byTag
  | byPath (place : scene.atPath? scope term = some entity.id) :
      Meets host scene cache scope term entity .byPath
  /-- A term that is no number names its layer. -/
  | byLayer (same : (Numeral.unsigned? (twoTo 32) term.toList).or (scene.layer? term) =
      some entity.layer) : Meets host scene cache scope term entity .byLayer
  | byComponent {type : Descriptor} {capability : Capability}
      (resolved : cache.answer host.env.catalog (.capability, term) = .ok type)
      (member : capability ∈ entity.capabilities)
      (same : capability.type.fullName = type.fullName) :
      Meets host scene cache scope term entity .byComponent

theorem mem_select_iff (granted : host.Grants .viewEntity) {pool : List EntityId}
    {condition : Entity → Bool} {id : EntityId} {entity : Entity}
    (record : scene.entity? id = some entity) :
    id ∈ host.select scene pool condition ↔ id ∈ pool ∧ condition entity = true := by
  rw [select, List.mem_filter, granted.entity?, record, Option.any_some]

theorem layer_eq_ok_iff {term : String} {index : Nat} :
    layer scene term = .ok index ↔
      (Numeral.unsigned? (twoTo 32) term.toList).or (scene.layer? term) = some index := by
  rw [layer]
  split
  · rename_i known
    rw [known]
    simp
  · rename_i unknown
    rw [unknown]
    simp

/-- A strategy with one criterion picks the entities of the pool that meet it. -/
theorem mem_run_iff (granted : host.Grants .viewEntity) (cache : TypeCache) {strategy : Strategy}
    (one : strategy ≠ .byIdOrNameOrPath) (term : String) (scope : Option EntityId)
    (pool : List EntityId) :
    (host.run scene cache strategy term scope pool).Gives fun found =>
      ∀ {id : EntityId} {entity : Entity}, scene.entity? id = some entity →
        (id ∈ found.1 ↔ id ∈ pool ∧ Meets host scene cache scope term entity strategy) := by
  cases strategy with
  | byIdOrNameOrPath => exact absurd rfl one
  | byId =>
      unfold run
      dsimp only
      split
      · rename_i wanted parsed
        refine Traced.Gives.pure fun {id entity} record => ?_
        obtain ⟨-, rfl⟩ := Scene.mem_of_entity? record
        rw [List.mem_filter, decide_eq_true_eq]
        refine and_congr_right fun _ => ⟨fun same => .byId ?_, fun meets => ?_⟩
        · exact EntityId.parse?_eq_some_iff.mp (same ▸ parsed)
        · cases meets with
          | byId reads =>
              have same := EntityId.parse?_eq_some_iff.mpr reads
              exact Option.some.inj (same.symm.trans parsed)
      · exact Traced.Gives.throw _
  | byName =>
      refine Traced.Gives.pure fun record => (mem_select_iff granted record).trans ?_
      rw [decide_eq_true_eq]
      refine and_congr_right fun _ => ⟨.byName, fun meets => ?_⟩
      cases meets with
      | byName same => exact same
  | byTag =>
      refine Traced.Gives.pure fun record => (mem_select_iff granted record).trans ?_
      rw [decide_eq_true_eq]
      refine and_congr_right fun _ => ⟨.byTag, fun meets => ?_⟩
      cases meets with
      | byTag same => exact same
  | byPath =>
      refine Traced.Gives.pure fun {id entity} record => ?_
      obtain ⟨-, rfl⟩ := Scene.mem_of_entity? record
      rw [selectPath, Option.mem_toList, Option.filter_eq_some_iff, List.contains_iff_mem, and_comm]
      refine and_congr_right fun _ => ⟨.byPath, fun meets => ?_⟩
      cases meets with
      | byPath place => exact place
  | byLayer =>
      have numbers : (Traced.ofExcept (layer scene term)).Gives fun index =>
          (Numeral.unsigned? (twoTo 32) term.toList).or (scene.layer? term) = some index :=
        Traced.Gives.ofExcept fun _ given => layer_eq_ok_iff.mp given
      refine numbers.bind fun index named => ?_
      refine Traced.Gives.pure fun record => (mem_select_iff granted record).trans ?_
      rw [decide_eq_true_eq]
      refine and_congr_right fun _ => ⟨fun same => .byLayer (same ▸ named), fun meets => ?_⟩
      cases meets with
      | byLayer same => exact Option.some.inj (same.symm.trans named)
  | byComponent =>
      have resolves : (cache.resolve host.env.catalog .capability term).Gives fun pair =>
          cache.answer host.env.catalog (.capability, term) = .ok pair.1 :=
        fun pair given => map_eq_ok_iff.mpr ⟨pair, given, rfl⟩
      refine resolves.bind fun pair answered => ?_
      refine Traced.Gives.pure fun record => (mem_select_iff granted record).trans ?_
      rw [Entity.hasCapability_iff]
      refine and_congr_right fun _ => ⟨?_, fun meets => ?_⟩
      · rintro ⟨capability, member, same⟩
        exact .byComponent answered member same
      · cases meets with
        | byComponent resolved member same =>
            obtain rfl := Except.ok.inj (answered.symm.trans resolved)
            exact ⟨_, member, same⟩

/-- A search that succeeds has found its scope, and it finds each entity of the scene that is in
scope, that is active with everything above it unless inactive ones are wanted too, and that meets
the criterion for the trimmed term; it finds no other entity, and none twice. The search below a
scope always ends. -/
theorem find_exact {scene : Scene} (reached : scene.Reachable) (host : Host)
    (plain : host.refusals = []) (cache : TypeCache) (query : Query) :
    (query.findAll = true → query.strategy ≠ .byIdOrNameOrPath →
      ∀ found cache', (host.find scene cache query).result = .ok (found, cache') →
        ∃ scope : Option EntityId,
          query.scope.mapM (host.resolveUnique scene query.includeInactive) = .ok scope ∧
          found.Nodup ∧
          ∀ id, id ∈ found ↔ ∃ entity, scene.entity? id = some entity ∧
            (∀ root ∈ scope, scene.Below id root) ∧
            (query.includeInactive = true ∨ ∀ above, scene.Below id above →
              ∃ record, scene.entity? above = some record ∧ record.active = true) ∧
            Meets host scene cache scope (Text.trim query.term) entity query.strategy) ∧
    ∀ includeInactive root, ∃ listed,
      Scene.Drains (scene.children includeInactive) [root] listed ∧
      scopePool scene includeInactive root =
        [root].filter (scene.isListed includeInactive) ++ listed := by
  have forest := reached.wellFormed.toForest
  refine ⟨fun all one found cache' success => ?_, scopePool_drains forest⟩
  obtain ⟨scope, matching, given, picked, outcome⟩ := host.find_runs scene cache query _ success
  obtain rfl : found = matching.eraseDups := outcome.trans (if_pos all)
  refine ⟨scope, given, nodup_eraseDups matching, fun id => ?_⟩
  have criterion {id : EntityId} {entity : Entity} (record : scene.entity? id = some entity) :=
    mem_run_iff (grants_of_plain plain .viewEntity) cache one _ scope _ _ picked record
  have candidate : id ∈ pool scene query.includeInactive scope ↔ _ :=
    mem_pool_iff forest (mem_ids_of_scope given)
  rw [forest.isListed_iff, ← Scene.entity?_isSome_iff] at candidate
  rw [List.mem_eraseDups]
  constructor
  · intro member
    have inPool := (run_sublist _ _ _ _ _ _ picked).subset member
    obtain ⟨exist, inScope, listed⟩ := candidate.mp inPool
    obtain ⟨entity, record⟩ := Option.isSome_iff_exists.mp exist
    exact ⟨entity, record, inScope, listed, ((criterion record).mp member).2⟩
  · rintro ⟨entity, record, inScope, listed, meets⟩
    have exist : (scene.entity? id).isSome = true := Option.isSome_iff_exists.mpr ⟨entity, record⟩
    exact (criterion record).mpr ⟨candidate.mpr ⟨exist, inScope, listed⟩, meets⟩

/-- Below the lamp the bulb is found, but neither the switch, which is inactive, nor the wire below
it. -/
theorem find_exact_of_lamp :
    let dimmed : Scene.RecordEdit :=
      { apply entity := { entity with active := false }
        keeps_id _ := rfl
        keeps_parent _ := rfl
        keeps_capabilities _ := rfl }
    let lamp := ((({} : Scene).after (.create "Lamp" none)).after (.create "Bulb" (some ⟨1⟩))).after
      (.create "Switch" (some ⟨1⟩))
    let scene := ((lamp.after (.edit ⟨3⟩ dimmed)).after (.create "Wire" (some ⟨3⟩))).after
      (.create "Desk" none)
    let query : Query := ⟨"Untagged", .byTag, some "Lamp", false, true⟩
    (({} : Host).find scene {} query).result.map Prod.fst = .ok [⟨1⟩, ⟨2⟩] ∧
      ¬ ∀ above, scene.Below ⟨4⟩ above →
        ∃ record, scene.entity? above = some record ∧ record.active = true := by
  intro dimmed lamp scene query
  have reached : scene.Reachable :=
    ((((((Scene.Reachable.fresh _ _).step _).step _).step _).step _).step _).step _
  have outcome : (({} : Host).find scene {} query).result.map Prod.fst = .ok [⟨1⟩, ⟨2⟩] := by
    decide +kernel
  refine ⟨outcome, fun active => ?_⟩
  obtain ⟨⟨_, cache⟩, success, rfl⟩ := map_eq_ok_iff.mp outcome
  obtain ⟨scope, given, -, exactly⟩ :=
    (find_exact reached {} rfl {} query).1 rfl (by decide) _ cache success
  have resolved : query.scope.mapM (({} : Host).resolveUnique scene false) = .ok (some ⟨1⟩) := by
    decide +kernel
  obtain rfl : some ⟨1⟩ = scope := Except.ok.inj (resolved.symm.trans given)
  have below : scene.Below ⟨4⟩ ⟨1⟩ :=
    .head (b := ⟨3⟩) (by decide) (.single (by decide))
  have found := (exactly ⟨4⟩).mpr
    ⟨_, rfl, fun _ root => Option.mem_some.mp root ▸ below, Or.inr active, .byTag (by decide)⟩
  revert found
  decide

end Host
end SceneEdit
