import Mathlib.Data.List.Sort
import SceneEdit.Proofs.Scene.Hierarchy

/-!
# The depth-first order

In a depth-first listing an entity comes before what lies below it, and what lies below a sibling
comes before what lies below a later one. This module takes these two rules as the definition of an
order on the entities of a forest, `Precedes`, and shows that it contradicts itself nowhere and
that walks down the hierarchy follow it. A listing in this order is therefore determined by its
members, whatever way it was computed.
-/

namespace SceneEdit.Scene

open Relation (ReflTransGen)

variable {scene : Scene}

/-- Two siblings, or two roots, the first one earlier in the table. -/
structure Elder (scene : Scene) (first second : EntityId) : Prop where
  siblings : ∃ parent, first ∈ scene.childIds parent ∧ second ∈ scene.childIds parent
  earlier : (scene.entities.map Entity.id).idxOf first <
    (scene.entities.map Entity.id).idxOf second

/-- One entity comes before another one depth first. -/
inductive Precedes (scene : Scene) (first second : EntityId) : Prop
  | above (below : scene.Below second first) (different : first ≠ second)
  | aside {elder younger : EntityId} (order : scene.Elder elder younger)
      (left : scene.Below first elder) (right : scene.Below second younger)

/-- A list follows the depth-first order. -/
abbrev DepthFirst (scene : Scene) (ids : List EntityId) : Prop := ids.Pairwise scene.Precedes

theorem Elder.ne {first second : EntityId} (order : scene.Elder first second) :
    first ≠ second := by
  rintro rfl
  exact Nat.lt_irrefl _ order.earlier

theorem Elder.precedes {first second : EntityId} (order : scene.Elder first second) :
    scene.Precedes first second :=
  .aside order .refl .refl

/-- Of two siblings one is the elder one. -/
theorem elder_trichotomy {parent : Option EntityId} {first second : EntityId}
    (member : first ∈ scene.childIds parent) (member' : second ∈ scene.childIds parent) :
    first = second ∨ scene.Elder first second ∨ scene.Elder second first := by
  obtain ⟨entity, inside, rfl, -⟩ := mem_childIds.mp member
  have known := List.mem_map_of_mem (f := Entity.id) inside
  obtain earlier | same | later := Nat.lt_trichotomy
    ((scene.entities.map Entity.id).idxOf entity.id) ((scene.entities.map Entity.id).idxOf second)
  · exact Or.inr (Or.inl ⟨⟨parent, member, member'⟩, earlier⟩)
  · exact Or.inl ((List.idxOf_inj known).mp same)
  · exact Or.inr (Or.inr ⟨⟨parent, member', member⟩, later⟩)

namespace Forest

variable (forest : scene.Forest)
include forest

/-! ### Siblings -/

/-- What lies above an entity lies above its siblings. -/
theorem below_of_sibling {parent : Option EntityId} {first second top : EntityId}
    (member : first ∈ scene.childIds parent) (member' : second ∈ scene.childIds parent)
    (below : scene.Below first top) (proper : first ≠ top) : scene.Below second top := by
  have link := forest.parentOf?_of_mem_childIds member
  have link' := forest.parentOf?_of_mem_childIds member'
  cases parent with
  | none => exact absurd ((reflTransGen_iff_of_root link).mp below).symm proper
  | some above =>
      have up := ((below_iff_of_parent link).mp below).resolve_left proper
      exact (below_iff_of_parent link').mpr (Or.inr up)

/-- An entity lies below at most one of two siblings. -/
theorem not_below_both {x first second : EntityId} (order : scene.Elder first second)
    (below : scene.Below x first) : ¬ scene.Below x second := by
  intro below'
  obtain ⟨parent, member, member'⟩ := order.siblings
  exact order.ne (forest.eq_of_below_siblings member member' below below')

theorem pairwise_elder (parent : Option EntityId) :
    (scene.childIds parent).Pairwise scene.Elder := by
  have table : (scene.entities.map Entity.id).Pairwise fun first second =>
      (scene.entities.map Entity.id).idxOf first < (scene.entities.map Entity.id).idxOf second := by
    refine List.pairwise_iff_getElem.mpr fun i j hi hj before => ?_
    rwa [forest.ids_nodup.idxOf_getElem, forest.ids_nodup.idxOf_getElem]
  refine (table.sublist (List.filter_sublist.map Entity.id)).imp_of_mem ?_
  exact fun member member' earlier => ⟨⟨parent, member, member'⟩, earlier⟩

/-! ### The order -/

/-- What comes first does not lie below what comes second. -/
theorem not_below_of_precedes {first second : EntityId} (order : scene.Precedes first second) :
    ¬ scene.Below first second := by
  intro up
  cases order with
  | above below different => exact different (forest.below_antisymm up below)
  | aside order left right => exact forest.not_below_both order left (up.trans right)

/-- No entity comes both before and after another one. -/
theorem precedes_asymm {first second : EntityId} (order : scene.Precedes first second) :
    ¬ scene.Precedes second first := by
  intro back
  cases order with
  | above below _ => exact forest.not_below_of_precedes back below
  | @aside a b order left right =>
      cases back with
      | above below _ => exact forest.not_below_of_precedes (.aside order left right) below
      | @aside c d order' left' right' =>
          -- Both `a` and `d` lie above `first`, so that one of them lies below the other. If they
          -- differ, both siblings of the lower pair lie below the upper one.
          obtain ⟨parent, inA, inB⟩ := order.siblings
          obtain ⟨parent', inC, inD⟩ := order'.siblings
          by_cases same : a = d
          · subst same
            obtain rfl : parent = parent' := (forest.parentOf?_of_mem_childIds inA).symm.trans
              (forest.parentOf?_of_mem_childIds inD)
            obtain rfl : b = c := forest.eq_of_below_siblings inB inC right left'
            exact Nat.lt_asymm order.earlier order'.earlier
          · obtain up | up := left.total right'
            · have above := forest.below_of_sibling inA inB up same
              exact forest.not_below_both order' left' (right.trans above)
            · have above := forest.below_of_sibling inD inC up (Ne.symm same)
              exact forest.not_below_both order (left'.trans above) right

theorem precedes_irrefl (id : EntityId) : ¬ scene.Precedes id id :=
  fun order => forest.precedes_asymm order order

/-! ### Listings -/

theorem nodup_of_depthFirst {ids : List EntityId} (order : scene.DepthFirst ids) : ids.Nodup := by
  have : Std.Irrefl scene.Precedes := ⟨forest.precedes_irrefl⟩
  exact order.nodup

/-- Lists with members of their own, both depth first, are equal. -/
theorem depthFirst_unique {ids ids' : List EntityId} (order : scene.DepthFirst ids)
    (order' : scene.DepthFirst ids') (same : ∀ id, id ∈ ids ↔ id ∈ ids') : ids = ids' := by
  have : Std.Irrefl scene.Precedes := ⟨forest.precedes_irrefl⟩
  have : Std.Antisymm scene.Precedes := ⟨fun _ _ h h' => absurd h' (forest.precedes_asymm h)⟩
  exact order.eq_of_mem_iff order' same

/-- Of two depth-first lists the one with fewer members is part of the other. -/
theorem depthFirst_sublist {ids ids' : List EntityId} (order : scene.DepthFirst ids)
    (order' : scene.DepthFirst ids') (subset : ids ⊆ ids') : ids.Sublist ids' := by
  have : Std.Antisymm scene.Precedes := ⟨fun _ _ h h' => absurd h' (forest.precedes_asymm h)⟩
  exact List.sublist_of_subperm_of_pairwise
    (List.subperm_of_subset (forest.nodup_of_depthFirst order) subset) order order'

theorem depthFirst_childIds (parent : Option EntityId) :
    scene.DepthFirst (scene.childIds parent) :=
  (forest.pairwise_elder parent).imp Elder.precedes

/-- Listings below siblings, one after the other. -/
theorem depthFirst_flatMap {parent : Option EntityId} {siblings : List EntityId}
    {lists : EntityId → List EntityId} (part : siblings.Sublist (scene.childIds parent))
    (each : ∀ id ∈ siblings, scene.DepthFirst (lists id))
    (inside : ∀ id ∈ siblings, ∀ x ∈ lists id, scene.Below x id) :
    scene.DepthFirst (siblings.flatMap lists) := by
  refine List.pairwise_flatMap.mpr ⟨each, ?_⟩
  refine ((forest.pairwise_elder parent).sublist part).imp_of_mem ?_
  intro first second member member' order x left y right
  exact .aside order (inside first member x left) (inside second member' y right)

/-- A walk along some of the links is depth first and stays below its start. -/
theorem depthFirst_walk {children : EntityId → List EntityId}
    (part : ∀ parent, (children parent).Sublist (scene.childIds (some parent))) (bound : Nat)
    (id : EntityId) :
    scene.DepthFirst (walk children bound id) ∧ ∀ x ∈ walk children bound id, scene.Below x id := by
  induction bound generalizing id with
  | zero => exact ⟨List.pairwise_singleton _ _, by simp [walk, Below, ReflTransGen.refl]⟩
  | succ bound ih =>
      have inside : ∀ x ∈ (children id).flatMap (walk children bound),
          scene.Below x id ∧ id ≠ x := by
        intro x member
        obtain ⟨child, link, deeper⟩ := List.mem_flatMap.mp member
        have up := forest.parentOf?_of_mem_childIds ((part id).subset link)
        have below := (ih child).2 x deeper
        refine ⟨below.tail up, ?_⟩
        rintro rfl
        exact forest.not_below_child up below
      refine ⟨List.pairwise_cons.mpr ⟨fun x member => ?_, ?_⟩, ?_⟩
      · exact .above (inside x member).1 (inside x member).2
      · exact forest.depthFirst_flatMap (part id) (fun child _ => (ih child).1)
          fun child _ => (ih child).2
      · exact List.forall_mem_cons.mpr ⟨.refl, fun x member => (inside x member).1⟩

theorem depthFirst_subtree (id : EntityId) : scene.DepthFirst (scene.subtree id) :=
  (forest.depthFirst_walk (fun _ => List.Sublist.refl _) _ id).1

theorem depthFirst_allEntities (includeInactive : Bool) :
    scene.DepthFirst (scene.allEntities includeInactive) := by
  refine List.Pairwise.sublist List.filter_sublist ?_
  exact forest.depthFirst_flatMap (List.Sublist.refl _) (fun id _ => forest.depthFirst_subtree id)
    fun id _ x member => forest.mem_subtree_iff.mp member

end Forest
end SceneEdit.Scene
