import SceneEdit.Proofs.Query.Membership
import SceneEdit.Proofs.Query.Order

/-!
# Matches and the enumeration of a scene

A search without a scope lists its matches as the enumeration of the scene does. A search below a
scope brings siblings together, and this is the one thing that sets the two orders apart: they agree
on some matches exactly if none of these is overtaken by another one. The first match is the one
that the enumeration comes to first exactly if it overtakes no other match.
-/

namespace SceneEdit

namespace Scene.Forest

variable {scene : Scene} (forest : scene.Forest)
include forest

/-- Where siblings come together, the order is depth first iff nothing is overtaken. -/
theorem depthFirst_iff_of_byGroups {ids : List EntityId} (order : scene.ByGroups ids) :
    scene.DepthFirst ids ↔ ∀ id ∈ ids, ∀ other ∈ ids, ¬ scene.Overtaken id other := by
  constructor
  · intro depthFirst id member other member'
    refine (order.imp And.left).forall_of_forall_of_flip ?_ ?_ member member'
    · exact fun id _ passed => forest.precedes_irrefl id passed.precedes
    · exact depthFirst.imp fun precedes (passed : scene.Overtaken _ _) =>
        forest.precedes_asymm precedes passed.precedes
  · intro none
    exact order.imp_of_mem fun member member' groups =>
      groups.2.resolve_right (none _ member' _ member)

/-- The first entity of a list by groups is the first of them in a depth-first listing iff it
overtakes none. -/
theorem take_one_eq_iff_of_byGroups {ids listing : List EntityId} (order : scene.ByGroups ids)
    (depthFirst : scene.DepthFirst listing) (same : ∀ id, id ∈ listing ↔ id ∈ ids) :
    ids.take 1 = listing.take 1 ↔ ∀ first ∈ ids.take 1, ∀ id ∈ ids, ¬ scene.Overtaken id first := by
  cases ids with
  | nil =>
      obtain rfl : listing = [] := List.eq_nil_iff_forall_not_mem.mpr fun id => by simp [same id]
      simp
  | cons first rest =>
      cases listing with
      | nil => exact absurd ((same first).mpr List.mem_cons_self) List.not_mem_nil
      | cons head others =>
          obtain ⟨later, -⟩ := List.pairwise_cons.mp depthFirst
          simp only [List.take_succ_cons, List.take_zero, List.cons.injEq, and_true,
            List.mem_singleton, forall_eq]
          constructor
          · rintro rfl id member passed
            obtain rfl | behind := List.mem_cons.mp ((same id).mpr member)
            · exact forest.precedes_irrefl id passed.precedes
            · exact forest.precedes_asymm (later id behind) passed.precedes
          · intro none
            by_contra different
            have inside : head ∈ rest :=
              List.mem_of_ne_of_mem (Ne.symm different) ((same head).mp List.mem_cons_self)
            have behind : first ∈ others :=
              List.mem_of_ne_of_mem different ((same first).mpr List.mem_cons_self)
            have precedes := ((List.pairwise_cons.mp order).1 head inside).2.resolve_right
              (none head (List.mem_cons_of_mem _ inside))
            exact forest.precedes_asymm precedes (later first behind)

end Scene.Forest

namespace Host

variable {host : Host} {scene : Scene}

/-- Every candidate of a search is enumerated. -/
theorem pool_subset_allEntities (forest : scene.Forest) {includeInactive : Bool}
    {scope : Option EntityId} (known : ∀ root ∈ scope, root ∈ scene.entities.map Entity.id) :
    pool scene includeInactive scope ⊆ scene.allEntities includeInactive := by
  intro id member
  obtain ⟨exist, -, listed⟩ := (mem_pool_iff forest known).mp member
  exact forest.mem_allEntities_iff.mpr ⟨exist, listed⟩

/-- A search for one entity gives the first of all matches. -/
theorem find_first (host : Host) (scene : Scene) (cache : TypeCache) (query : Query) :
    (host.find scene cache { query with findAll := false }).result =
      (host.find scene cache { query with findAll := true }).result.map
        fun found => (found.1.take 1, found.2) := by
  rw [find, find]
  dsimp only
  split
  · rfl
  · simp only [Traced.result_bind, Traced.result_ofExcept, Traced.result_tell, Traced.result_pure]
    cases query.scope.mapM (host.resolveUnique scene query.includeInactive) with
    | error report => rfl
    | ok scope =>
        dsimp only [Except.bind]
        cases (host.run scene cache query.strategy (Text.trim query.term) scope
          (pool scene query.includeInactive scope)).result with
        | error report => rfl
        | ok picked => rfl

/-- The matches of a search come in the order of the enumeration exactly if it has no scope or none
of them lies below an elder sibling of another one. A search for one entity gives the first match,
which is the one that the enumeration comes to first exactly if the search has no scope or no other
match lies below an elder sibling of it. -/
theorem find_enumerates_iff {scene : Scene} (reached : scene.Reachable) (host : Host)
    (cache : TypeCache) (query : Query) {found : List EntityId} {cache' : TypeCache}
    (success : (host.find scene cache { query with findAll := true }).result =
      .ok (found, cache')) :
    (found.Sublist (scene.allEntities query.includeInactive) ↔
      query.scope = none ∨ ∀ id ∈ found, ∀ other ∈ found, ¬ scene.Overtaken id other) ∧
    (host.find scene cache { query with findAll := false }).result =
      .ok (found.take 1, cache') ∧
    (found.take 1 = ((scene.allEntities query.includeInactive).filter found.contains).take 1 ↔
      query.scope = none ∨ ∀ first ∈ found.take 1, ∀ id ∈ found, ¬ scene.Overtaken id first) := by
  have forest := reached.wellFormed.toForest
  have listing := forest.depthFirst_allEntities query.includeInactive
  obtain ⟨scope, matching, given, picked, outcome⟩ := host.find_runs scene cache _ _ success
  obtain rfl : found = matching.eraseDups := outcome
  have part : matching.eraseDups.Sublist (pool scene query.includeInactive scope) :=
    (eraseDups_sublist _).trans (run_sublist cache query.strategy _ scope _ _ picked)
  have enumerated : matching.eraseDups ⊆ scene.allEntities query.includeInactive :=
    fun _ member =>
      pool_subset_allEntities forest (mem_ids_of_scope given) (part.subset member)
  have ordered : matching.eraseDups.Sublist (scene.allEntities query.includeInactive) ↔
      scene.DepthFirst matching.eraseDups :=
    ⟨fun inside => listing.sublist inside,
      fun order => forest.depthFirst_sublist order listing enumerated⟩
  have same : ∀ id, id ∈ (scene.allEntities query.includeInactive).filter
      matching.eraseDups.contains ↔ id ∈ matching.eraseDups := by
    intro id
    rw [List.mem_filter, List.contains_iff_mem]
    exact ⟨And.right, fun member => ⟨enumerated member, member⟩⟩
  have restricted := listing.sublist
    (List.filter_sublist (p := matching.eraseDups.contains))
  rw [ordered, find_first, success]
  cases reference : query.scope with
  | none =>
      obtain rfl : none = scope := by
        rw [reference] at given
        exact Except.ok.inj given
      have order : scene.DepthFirst matching.eraseDups := listing.sublist part
      have equal := forest.depthFirst_unique restricted order same
      simp [order, equal, Except.map]
  | some name =>
      obtain ⟨root, -, rfl⟩ : ∃ root, host.resolveUnique scene query.includeInactive name =
          .ok root ∧ some root = scope := by
        rw [reference] at given
        exact map_eq_ok_iff.mp given
      have order : scene.ByGroups matching.eraseDups :=
        (scopePool_byGroups forest query.includeInactive root).sublist part
      simp only [reduceCtorEq, false_or]
      exact ⟨forest.depthFirst_iff_of_byGroups order, rfl,
        forest.take_one_eq_iff_of_byGroups order restricted same⟩

/-- The lamp in the box is enumerated before the lamp beside the box, which comes first below the
room: one of them is overtaken. -/
theorem find_enumerates_iff_of_room :
    let room := (({} : Scene).after (.create "Room" none)).after (.create "Box" (some ⟨1⟩))
    let scene := (room.after (.create "Lamp" (some ⟨1⟩))).after (.create "Lamp" (some ⟨2⟩))
    let query : Query := ⟨"Lamp", .byName, some "Room", false, true⟩
    scene.Reachable ∧ (({} : Host).find scene {} query).result.map Prod.fst = .ok [⟨3⟩, ⟨4⟩] ∧
      (∃ id ∈ [⟨3⟩, ⟨4⟩], ∃ other ∈ [⟨3⟩, ⟨4⟩], scene.Overtaken id other) ∧
      ∃ id ∈ [⟨3⟩, ⟨4⟩], scene.Overtaken id ⟨3⟩ := by
  intro room scene query
  have reached : scene.Reachable :=
    ((((Scene.Reachable.fresh _ _).step _).step _).step _).step _
  have outcome : (({} : Host).find scene {} query).result.map Prod.fst = .ok [⟨3⟩, ⟨4⟩] := by
    decide +kernel
  obtain ⟨⟨_, cache⟩, success, rfl⟩ := map_eq_ok_iff.mp outcome
  obtain ⟨ordered, -, first⟩ := find_enumerates_iff reached {} {} query success
  refine ⟨reached, outcome, ?_, ?_⟩
  · by_contra none
    have inside := ordered.mpr (Or.inr fun id member other member' passed =>
      none ⟨id, member, other, member', passed⟩)
    revert inside
    decide +kernel
  · by_contra none
    have head := first.mpr (Or.inr fun head isHead id member passed => by
      obtain rfl := List.mem_singleton.mp isHead
      exact none ⟨id, member, passed⟩)
    revert head
    decide +kernel

/-- The lamp beside the box comes first below the room, though the enumeration comes to the lamp in
the box before. -/
theorem find_not_enumerating :
    let room := (({} : Scene).after (.create "Room" none)).after (.create "Box" (some ⟨1⟩))
    let scene := (room.after (.create "Lamp" (some ⟨1⟩))).after (.create "Lamp" (some ⟨2⟩))
    let query : Query := ⟨"Lamp", .byName, some "Room", false, true⟩
    let first : Query := { query with findAll := false }
    scene.Reachable ∧ scene.allEntities false = [⟨1⟩, ⟨2⟩, ⟨4⟩, ⟨3⟩] ∧
      (({} : Host).find scene {} query).result.map Prod.fst = .ok [⟨3⟩, ⟨4⟩] ∧
      ¬ [⟨3⟩, ⟨4⟩].Sublist (scene.allEntities false) ∧
      (({} : Host).find scene {} first).result.map Prod.fst = .ok [⟨3⟩] ∧
      (scene.allEntities false).find? ([⟨3⟩, ⟨4⟩] : List EntityId).contains = some ⟨4⟩ := by
  intro room scene query first
  refine ⟨((((Scene.Reachable.fresh _ _).step _).step _).step _).step _, ?_⟩
  decide +kernel

end Host
end SceneEdit
