import SceneEdit.Proofs.Query.Search
import SceneEdit.Proofs.Scene.DepthFirst

/-!
# The order of a search

All entities come depth first. Below a scope the children of an entity come together instead, when
the walk from the scope visits that entity, so that a later sibling overtakes what lies below an
earlier one (`Host.scopePool_byGroups`). In both orders an entity comes before what lies below it.
Every strategy picks from the pool in its order, so the same holds of what a search finds
(`Host.find_topDown`).
-/

namespace SceneEdit

namespace Scene

variable {scene : Scene}

/-- No entity comes before another one that it lies below. -/
def TopDown (scene : Scene) (ids : List EntityId) : Prop :=
  ids.Pairwise fun first second => scene.Below first second → first = second

/-- An entity lies below an elder sibling of another one, so that it comes before that one depth
first and after it where siblings come together. -/
def Overtaken (scene : Scene) (id other : EntityId) : Prop :=
  ∃ elder, scene.Elder elder other ∧ scene.Below id elder ∧ id ≠ elder

/-- A list is depth first except that siblings come together. -/
def ByGroups (scene : Scene) (ids : List EntityId) : Prop :=
  ids.Pairwise fun first second => ¬ scene.Overtaken first second ∧
    (scene.Precedes first second ∨ scene.Overtaken second first)

theorem Overtaken.precedes {first second : EntityId} (passed : scene.Overtaken first second) :
    scene.Precedes first second := by
  obtain ⟨elder, order, below, -⟩ := passed
  exact .aside order below .refl

namespace Forest

variable (forest : scene.Forest)
include forest

theorem topDown_of_depthFirst {ids : List EntityId} (order : scene.DepthFirst ids) :
    scene.TopDown ids :=
  order.imp fun precedes below => absurd below (forest.not_below_of_precedes precedes)

theorem topDown_of_byGroups {ids : List EntityId} (order : scene.ByGroups ids) :
    scene.TopDown ids := by
  refine order.imp ?_
  rintro first second ⟨-, precedes | ⟨elder, sibling, under, -⟩⟩ below
  · exact absurd below (forest.not_below_of_precedes precedes)
  · exact absurd .refl (forest.not_below_both sibling (below.trans under))

/-- What is overtaken has its parent below the parent of what overtakes it. -/
theorem below_of_overtaken {first second parent parent' : EntityId}
    (link : scene.parentOf? first = some parent) (link' : scene.parentOf? second = some parent')
    (passed : scene.Overtaken first second) : scene.Below parent parent' ∧ parent ≠ parent' := by
  obtain ⟨elder, order, below, proper⟩ := passed
  obtain ⟨shared, member, member'⟩ := order.siblings
  obtain rfl : shared = some parent' :=
    (forest.parentOf?_of_mem_childIds member').symm.trans link'
  have up := ((below_iff_of_parent link).mp below).resolve_left proper
  have top := forest.parentOf?_of_mem_childIds member
  refine ⟨up.tail top, ?_⟩
  rintro rfl
  exact forest.not_below_child top up

/-- Where one parent comes before another one, the children of the first one come first, and none
of them is overtaken. What lies below an elder sibling of a child is overtaken by that child. -/
theorem byGroups_of_precedes {first second parent parent' : EntityId}
    (order : scene.Precedes parent parent') (link : scene.parentOf? first = some parent)
    (link' : scene.parentOf? second = some parent') :
    ¬ scene.Overtaken first second ∧
      (scene.Precedes first second ∨ scene.Overtaken second first) := by
  refine ⟨fun passed => forest.not_below_of_precedes order
    (forest.below_of_overtaken link link' passed).1, ?_⟩
  cases order with
  | aside order left right => exact Or.inl (.aside order (left.head link) (right.head link'))
  | above below different =>
      obtain same | ⟨branch, under, up⟩ := Relation.ReflTransGen.cases_tail below
      · exact absurd same different
      · -- The second entity lies below a sibling of the first one, or below the first one.
        have deeper : scene.Below second branch := under.head link'
        have proper : second ≠ branch := by
          rintro rfl
          exact different (Option.some.inj (up.symm.trans link'))
        obtain rfl | elder | younger := elder_trichotomy
          (forest.parentOf?_eq_some_iff.mp link) (forest.parentOf?_eq_some_iff.mp up)
        · exact Or.inl (.above deeper proper.symm)
        · exact Or.inl (.aside elder .refl deeper)
        · exact Or.inr ⟨branch, younger, deeper, proper⟩

end Forest
end Scene

namespace Host

variable {host : Host} {scene : Scene}

/-! ### Pools -/

/-- The entities below a scope: the scope comes first, siblings come together, and the groups come
in the order of their parents. -/
theorem scopePool_byGroups (forest : scene.Forest) (includeInactive : Bool) (root : EntityId) :
    scene.ByGroups (scopePool scene includeInactive root) := by
  obtain ⟨visits, inside⟩ := forest.depthFirst_walk
    (fun parent => (List.filter_sublist : (scene.children includeInactive parent).Sublist _))
    scene.entities.length root
  have link : ∀ {x parent}, x ∈ scene.children includeInactive parent →
      scene.parentOf? x = some parent :=
    fun member => forest.parentOf?_of_mem_childIds (List.mem_of_mem_filter member)
  refine List.pairwise_append.mpr ⟨?_, List.pairwise_flatMap.mpr ⟨?_, ?_⟩, ?_⟩
  · exact List.Pairwise.sublist List.filter_sublist (List.pairwise_singleton _ _)
  · intro parent _
    have order := (forest.pairwise_elder (some parent)).sublist
      (List.filter_sublist : (scene.children includeInactive parent).Sublist _)
    refine order.imp_of_mem fun {first second} member member' elder => ⟨fun passed => ?_, ?_⟩
    · exact (forest.below_of_overtaken (link member) (link member') passed).2 rfl
    · exact Or.inl elder.precedes
  · refine visits.imp fun {parent parent'} order first member second member' => ?_
    exact forest.byGroups_of_precedes order (link member) (link member')
  · intro first isRoot second member
    obtain rfl := List.mem_singleton.mp (List.mem_of_mem_filter isRoot)
    obtain ⟨parent, visited, child⟩ := List.mem_flatMap.mp member
    have under := inside parent visited
    have below : scene.Below second first := under.head (link child)
    refine ⟨?_, Or.inl (.above below ?_)⟩
    · rintro ⟨elder, sibling, up, -⟩
      exact forest.not_below_both sibling (below.trans up) .refl
    · rintro rfl
      exact forest.not_below_child (link child) under

theorem pool_topDown (forest : scene.Forest) (includeInactive : Bool) (scope : Option EntityId) :
    scene.TopDown (pool scene includeInactive scope) := by
  cases scope with
  | none => exact forest.topDown_of_depthFirst (forest.depthFirst_allEntities includeInactive)
  | some root => exact forest.topDown_of_byGroups (scopePool_byGroups forest includeInactive root)

/-- A search finds no entity before another one that it lies below. -/
theorem find_topDown (host : Host) (forest : scene.Forest) (cache : TypeCache) (query : Query) :
    (host.find scene cache query).Gives fun found => scene.TopDown found.1 := by
  intro found success
  obtain ⟨scope, matching, -, picked, outcome⟩ := host.find_runs scene cache query found success
  have order : scene.TopDown matching.eraseDups := (pool_topDown forest _ scope).sublist
    ((eraseDups_sublist _).trans (run_sublist cache query.strategy _ scope _ _ picked))
  rw [outcome]
  split
  · exact order
  · exact order.sublist (List.take_sublist _ _)

end Host
end SceneEdit
