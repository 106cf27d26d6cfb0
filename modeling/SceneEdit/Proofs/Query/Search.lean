import SceneEdit.Proofs.Duplicates
import SceneEdit.Proofs.Log
import SceneEdit.Proofs.Scene.Hierarchy
import SceneEdit.Query.Search

/-!
# What a search finds

A search finds entities of the scene, each once. Every strategy picks from the pool in its order,
and the pool is made of entities: all of them, or a scope, which a reference has found before, with
what lies below it.
-/

namespace SceneEdit

/-- A term is the identity of an entity if it reads as the number of the identity. -/
theorem EntityId.parse?_eq_some_iff {term : String} {id : EntityId} :
    EntityId.parse? term = some id ↔ Numeral.int64? term.toList = some id.number := by
  rw [parse?, Option.map_eq_some_iff]
  exact ⟨fun ⟨_, reads, same⟩ => same ▸ reads, fun reads => ⟨_, reads, rfl⟩⟩

namespace Host

variable {host : Host} {scene : Scene}

/-! ### Picking from a pool -/

theorem selectPath_sublist (scope : Option EntityId) (pool : List EntityId) (term : String) :
    (selectPath scene scope pool term).Sublist pool := by
  rw [selectPath]
  cases place : (scene.atPath? scope term).filter pool.contains with
  | none => exact List.nil_sublist _
  | some id =>
      obtain ⟨-, inside⟩ := Option.filter_eq_some_iff.mp place
      exact List.singleton_sublist.mpr (List.contains_iff_mem.mp inside)

theorem ifNonempty_sublist {first second pool : List EntityId} (fromFirst : first.Sublist pool)
    (fromSecond : second.Sublist pool) :
    (if first ≠ [] then first else second).Sublist pool := by
  split
  · exact fromFirst
  · exact fromSecond

theorem selectLoosely_sublist (scope : Option EntityId) (pool : List EntityId) (term : String) :
    (host.selectLoosely scene scope pool term).Sublist pool := by
  refine ifNonempty_sublist ?_ (ifNonempty_sublist ?_ List.filter_sublist)
  · split
    · exact List.filter_sublist
    · exact List.nil_sublist _
  · split
    · exact selectPath_sublist scope pool term
    · exact List.nil_sublist _

theorem run_sublist (cache : TypeCache) (strategy : Strategy) (term : String)
    (scope : Option EntityId) (pool : List EntityId) :
    (host.run scene cache strategy term scope pool).Gives fun found => found.1.Sublist pool := by
  cases strategy with
  | byId =>
      unfold run
      dsimp only
      split
      · exact Traced.Gives.pure List.filter_sublist
      · exact Traced.Gives.throw _
  | byName => exact Traced.Gives.pure List.filter_sublist
  | byTag => exact Traced.Gives.pure List.filter_sublist
  | byPath => exact Traced.Gives.pure (selectPath_sublist scope pool term)
  | byLayer => exact (Traced.Gives.any _).bind fun _ _ => Traced.Gives.pure List.filter_sublist
  | byComponent =>
      exact (Traced.Gives.any _).bind fun _ _ => Traced.Gives.pure List.filter_sublist
  | byIdOrNameOrPath => exact Traced.Gives.pure (selectLoosely_sublist scope pool term)

/-! ### Pools -/

theorem childIds_subset (parent : Option EntityId) :
    scene.childIds parent ⊆ scene.entities.map Entity.id := by
  intro id member
  obtain ⟨entity, inside, rfl, _⟩ := Scene.mem_childIds.mp member
  exact List.mem_map_of_mem inside

theorem children_subset (includeInactive : Bool) (id : EntityId) :
    scene.children includeInactive id ⊆ scene.entities.map Entity.id :=
  fun _ member => childIds_subset _ (List.mem_of_mem_filter member)

/-- A walk from an entity to children visits entities. -/
theorem walk_subset (bound : Nat) {id : EntityId} (known : id ∈ scene.entities.map Entity.id) :
    Scene.walk (fun parent => scene.childIds (some parent)) bound id ⊆
      scene.entities.map Entity.id := by
  induction bound generalizing id with
  | zero => exact List.cons_subset.mpr ⟨known, List.nil_subset _⟩
  | succ bound ih =>
      refine List.cons_subset.mpr ⟨known, fun x below => ?_⟩
      obtain ⟨child, isChild, visited⟩ := List.mem_flatMap.mp below
      exact ih (childIds_subset _ isChild) visited

theorem allEntities_subset (includeInactive : Bool) :
    scene.allEntities includeInactive ⊆ scene.entities.map Entity.id := by
  intro id member
  obtain ⟨root, isRoot, below⟩ := List.mem_flatMap.mp (List.mem_of_mem_filter member)
  exact walk_subset _ (childIds_subset _ isRoot) below

theorem mem_ids_of_resolveUnique {includeInactive : Bool}
    {reference : String} {id : EntityId}
    (resolved : host.resolveUnique scene includeInactive reference = .ok id) :
    id ∈ scene.entities.map Entity.id := by
  rw [resolveUnique] at resolved
  dsimp only at resolved
  split at resolved
  · cases resolved
  · split at resolved
    · cases resolved
    · rename_i found
      cases resolved
      have member : id ∈ host.referents scene includeInactive (Text.trim reference) := by
        rw [found]
        exact List.mem_singleton_self id
      exact allEntities_subset includeInactive
        ((selectLoosely_sublist _ _ _).subset (List.mem_eraseDups.mp member))
    · cases resolved

theorem pool_subset (includeInactive : Bool) (scope : Option EntityId)
    (known : ∀ root ∈ scope, root ∈ scene.entities.map Entity.id) :
    pool scene includeInactive scope ⊆ scene.entities.map Entity.id := by
  cases scope with
  | none => exact allEntities_subset includeInactive
  | some root =>
      intro id member
      rcases List.mem_append.mp member with isRoot | below
      · obtain rfl := List.mem_singleton.mp (List.mem_of_mem_filter isRoot)
        exact known id rfl
      · obtain ⟨_, _, child⟩ := List.mem_flatMap.mp below
        exact children_subset _ _ child

/-! ### Searches -/

/-- A scope that is found is an entity of the scene. -/
theorem mem_ids_of_scope {includeInactive : Bool} {reference : Option String}
    {scope : Option EntityId}
    (given : reference.mapM (host.resolveUnique scene includeInactive) = .ok scope) :
    ∀ root ∈ scope, root ∈ scene.entities.map Entity.id := by
  intro root member
  obtain rfl := Option.mem_def.mp member
  cases reference with
  | none => simp [pure, Except.pure] at given
  | some reference =>
      obtain ⟨id, resolved, same⟩ := map_eq_ok_iff.mp given
      cases same
      exact mem_ids_of_resolveUnique resolved

/-- A search that succeeds has found its scope and has run its strategy over the pool. -/
theorem find_runs (host : Host) (scene : Scene) (cache : TypeCache) (query : Query) :
    (host.find scene cache query).Gives fun found => ∃ scope matching,
      query.scope.mapM (host.resolveUnique scene query.includeInactive) = .ok scope ∧
      (host.run scene cache query.strategy (Text.trim query.term) scope
        (pool scene query.includeInactive scope)).result = .ok (matching, found.2) ∧
      found.1 = if query.findAll then matching.eraseDups else matching.eraseDups.take 1 := by
  rw [find]
  dsimp only
  split
  · exact Traced.Gives.throw _
  · refine Traced.Gives.bind (Traced.Gives.ofExcept fun _ given => given) fun scope given => ?_
    refine Traced.Gives.bind (fun _ picked => picked) fun (matching, cache') picked => ?_
    exact (Traced.Gives.any _).bind fun _ _ =>
      Traced.Gives.pure ⟨scope, matching, given, picked, rfl⟩

/-- A search finds entities of the scene, each once. -/
theorem find_gives (host : Host) (scene : Scene) (cache : TypeCache) (query : Query) :
    (host.find scene cache query).Gives fun found =>
      found.1.Nodup ∧ found.1 ⊆ scene.entities.map Entity.id := by
  intro found success
  obtain ⟨scope, matching, given, picked, outcome⟩ := host.find_runs scene cache query found success
  have subset : matching.eraseDups ⊆ scene.entities.map Entity.id := fun id member =>
    pool_subset _ scope (mem_ids_of_scope given)
      ((run_sublist cache query.strategy _ scope _ _ picked).subset (List.mem_eraseDups.mp member))
  rw [outcome]
  split
  · exact ⟨nodup_eraseDups _, subset⟩
  · exact ⟨(List.take_sublist _ _).nodup (nodup_eraseDups _),
      fun _ member => subset (List.mem_of_mem_take member)⟩

end Host
end SceneEdit
