import Mathlib.Data.List.Nodup
import Mathlib.Logic.Relation
import Mathlib.Order.RelClasses
import SceneEdit.Scene.Tree

/-!
# Ancestors and descendants

Walks through a scene stop at the length of the table. This module compares them with the
relation they are meant to compute: `Below` follows parent links any number of times.

The comparison needs a forest: identities are distinct, parents exist, and some rank falls along
every parent link. In a forest no walk is cut short by its bound, so a larger bound adds nothing;
walking down finds exactly what lies below an entity, each once; and walking up finds exactly what
it lies below. Both walks are first studied for any function that supplies children or parents,
since searches and hosts walk along parts of the hierarchy only.
-/

namespace SceneEdit.Scene

open Relation (ReflTransGen)

/-! ### Walking down any hierarchy -/

section Down

variable {children : EntityId → List EntityId} (height : EntityId → Nat)

/-- A walk that reaches the leaves does not depend on its bound. -/
theorem walk_eq_walk (falls : ∀ parent, ∀ child ∈ children parent, height child < height parent)
    {bound bound' : Nat} {id : EntityId} (enough : height id ≤ bound)
    (enough' : height id ≤ bound') : walk children bound id = walk children bound' id := by
  have leaf : ∀ id, height id = 0 → children id = [] := by
    intro id hz
    apply List.eq_nil_iff_forall_not_mem.mpr
    intro child member
    have := falls id child member
    omega
  induction bound generalizing bound' id with
  | zero =>
      have empty := leaf id (by omega)
      cases bound' <;> simp [walk, empty]
  | succ bound ih =>
      cases bound' with
      | zero => simp [walk, leaf id (by omega)]
      | succ bound' =>
          simp only [walk, List.cons.injEq, true_and]
          apply List.flatMap_congr
          intro child member
          have := falls id child member
          exact ih (by omega) (by omega)

theorem id_mem_walk (children : EntityId → List EntityId) (bound : Nat) (id : EntityId) :
    id ∈ walk children bound id := by
  cases bound <;> simp [walk]

theorem reflTransGen_of_mem_walk {bound : Nat} {x id : EntityId}
    (member : x ∈ walk children bound id) :
    ReflTransGen (fun child parent => child ∈ children parent) x id := by
  induction bound generalizing id with
  | zero =>
      obtain rfl : x = id := by simpa [walk] using member
      exact .refl
  | succ bound ih =>
      rcases List.mem_cons.mp member with rfl | deeper
      · exact .refl
      · obtain ⟨child, link, inside⟩ := List.mem_flatMap.mp deeper
        exact (ih inside).tail link

/-- What a walk visits, it visits together with the children, one level further down. -/
theorem mem_walk_succ {bound : Nat} {x parent id : EntityId} (link : x ∈ children parent)
    (member : parent ∈ walk children bound id) : x ∈ walk children (bound + 1) id := by
  induction bound generalizing id with
  | zero =>
      obtain rfl : parent = id := by simpa [walk] using member
      simp [walk, link]
  | succ bound ih =>
      rcases List.mem_cons.mp member with rfl | deeper
      · exact List.mem_cons_of_mem _
          (List.mem_flatMap.mpr ⟨x, link, id_mem_walk children _ x⟩)
      · obtain ⟨child, hc, inside⟩ := List.mem_flatMap.mp deeper
        exact List.mem_cons_of_mem _ (List.mem_flatMap.mpr ⟨child, hc, ih inside⟩)

theorem mem_walk_iff (falls : ∀ parent, ∀ child ∈ children parent, height child < height parent)
    {bound : Nat} {x id : EntityId} (enough : height id ≤ bound) :
    x ∈ walk children bound id ↔
      ReflTransGen (fun child parent => child ∈ children parent) x id := by
  refine ⟨reflTransGen_of_mem_walk, fun chain => ?_⟩
  induction chain using ReflTransGen.head_induction_on with
  | refl => exact id_mem_walk children bound id
  | head link _ member =>
      rw [walk_eq_walk height falls enough (Nat.le_succ_of_le enough)]
      exact mem_walk_succ link member

/-- Going up a chain never lowers the height. -/
theorem height_le (falls : ∀ parent, ∀ child ∈ children parent, height child < height parent)
    {x id : EntityId} (chain : ReflTransGen (fun child parent => child ∈ children parent) x id) :
    height x ≤ height id := by
  induction chain with
  | refl => exact Nat.le_refl _
  | tail _ link ih => exact Nat.le_trans ih (Nat.le_of_lt (falls _ _ link))

/-- Siblings have nothing below them in common, and nothing lies below itself. -/
theorem nodup_walk (falls : ∀ parent, ∀ child ∈ children parent, height child < height parent)
    (once : ∀ parent, (children parent).Nodup)
    (unique : ∀ child parent parent', child ∈ children parent → child ∈ children parent' →
      parent = parent') (bound : Nat) (id : EntityId) : (walk children bound id).Nodup := by
  induction bound generalizing id with
  | zero => simp [walk]
  | succ bound ih =>
      refine List.nodup_cons.mpr ⟨?_, List.nodup_flatMap.mpr ⟨fun child _ => ih child, ?_⟩⟩
      · intro member
        obtain ⟨child, link, inside⟩ := List.mem_flatMap.mp member
        have low := height_le height falls (reflTransGen_of_mem_walk inside)
        have high := falls id child link
        omega
      · refine (once id).imp_of_mem fun {a b} ha hb different x inA inB => ?_
        -- Of two siblings above `x` one lies below the other, hence below its own parent `id`.
        have apart : ∀ a b, a ∈ children id → b ∈ children id → a ≠ b →
            ¬ ReflTransGen (fun child parent => child ∈ children parent) a b := by
          intro a b ha hb different chain
          rcases ReflTransGen.cases_head chain with rfl | ⟨parent, link, rest⟩
          · exact different rfl
          · rw [unique a parent id link ha] at rest
            have low := height_le height falls rest
            have high := falls id b hb
            omega
        rcases ReflTransGen.total_of_right_unique (fun a b c h h' => unique a b c h h')
          (reflTransGen_of_mem_walk inA) (reflTransGen_of_mem_walk inB) with chain | chain
        · exact apart a b ha hb different chain
        · exact apart b a hb ha different.symm chain

end Down

/-! ### Walking up any hierarchy -/

section Up

variable {parent : EntityId → Option EntityId} (depth : EntityId → Nat)

/-- A walk that reaches a root does not depend on its bound. -/
theorem climb_eq_climb
    (falls : ∀ child above, parent child = some above → depth above < depth child)
    {bound bound' : Nat} {id : EntityId} (enough : depth id ≤ bound) (enough' : depth id ≤ bound') :
    climb parent bound id = climb parent bound' id := by
  have root : ∀ id, depth id = 0 → parent id = none := by
    intro id hz
    apply Option.eq_none_iff_forall_ne_some.mpr
    intro above link
    have := falls id above link
    omega
  induction bound generalizing bound' id with
  | zero =>
      have none := root id (by omega)
      cases bound' <;> simp [climb, none]
  | succ bound ih =>
      cases bound' with
      | zero => simp [climb, root id (by omega)]
      | succ bound' =>
          cases link : parent id with
          | none => simp [climb, link]
          | some above =>
              have := falls id above link
              simpa [climb, link] using ih (by omega) (by omega)

/-- Nothing but itself lies above a root. -/
theorem reflTransGen_iff_of_root {id x : EntityId} (root : parent id = none) :
    ReflTransGen (fun child above => parent child = some above) id x ↔ x = id := by
  constructor
  · intro chain
    rcases ReflTransGen.cases_head chain with rfl | ⟨above, link, _⟩
    · rfl
    · rw [root] at link
      cases link
  · rintro rfl
    exact .refl

theorem mem_climb_iff
    (falls : ∀ child above, parent child = some above → depth above < depth child)
    {bound : Nat} {id x : EntityId} (enough : depth id ≤ bound) :
    x ∈ climb parent bound id ↔
      ReflTransGen (fun child above => parent child = some above) id x := by
  induction bound generalizing id with
  | zero =>
      have root : parent id = none := by
        apply Option.eq_none_iff_forall_ne_some.mpr
        intro above link
        have := falls id above link
        omega
      simp [climb, reflTransGen_iff_of_root root]
  | succ bound ih =>
      cases link : parent id with
      | none => simp [climb, link, reflTransGen_iff_of_root link]
      | some above =>
          have lower := falls id above link
          have rest : x ∈ climb parent bound above ↔
              ReflTransGen (fun child above => parent child = some above) above x :=
            ih (by omega)
          simp only [climb, link, Option.map_some, Option.getD_some, List.mem_cons, rest]
          constructor
          · rintro (rfl | chain)
            · exact .refl
            · exact chain.head link
          · intro chain
            rcases ReflTransGen.cases_head chain with rfl | ⟨above', link', chain'⟩
            · exact Or.inl rfl
            · rw [link] at link'
              cases link'
              exact Or.inr chain'

end Up

/-! ### Forests -/

/-- An entity is another one or lies below it. -/
def Below (scene : Scene) : EntityId → EntityId → Prop :=
  ReflTransGen fun child parent => scene.parentOf? child = some parent

theorem below_iff_of_parent {scene : Scene} {x parent a : EntityId}
    (link : scene.parentOf? x = some parent) : scene.Below x a ↔ x = a ∨ scene.Below parent a := by
  constructor
  · intro chain
    rcases ReflTransGen.cases_head chain with rfl | ⟨parent', link', rest⟩
    · exact Or.inl rfl
    · rw [link] at link'
      cases link'
      exact Or.inr rest
  · rintro (rfl | rest)
    · exact .refl
    · exact rest.head link

/-- Of two entities above a third one, one lies below the other. -/
theorem Below.total {scene : Scene} {x first second : EntityId} (below : scene.Below x first)
    (below' : scene.Below x second) : scene.Below first second ∨ scene.Below second first :=
  ReflTransGen.total_of_right_unique
    (fun _ _ _ link link' => Option.some.inj (link.symm.trans link')) below below'

/-- Identities are distinct, parents exist, and parent links never lead in a circle: some rank
falls along each of them. -/
structure Forest (scene : Scene) : Prop where
  ids_nodup : (scene.entities.map Entity.id).Nodup
  parents_exist : ∀ entity ∈ scene.entities, ∀ parent, entity.parent = some parent →
    parent ∈ scene.entities.map Entity.id
  ranked : ∃ rank : EntityId → Nat, ∀ entity ∈ scene.entities, ∀ parent,
    entity.parent = some parent → rank parent < rank entity.id

theorem mem_childIds {scene : Scene} {parent : Option EntityId} {id : EntityId} :
    id ∈ scene.childIds parent ↔
      ∃ entity ∈ scene.entities, entity.id = id ∧ entity.parent = parent := by
  simp only [childIds, List.mem_map, List.mem_filter, decide_eq_true_eq]
  constructor
  · rintro ⟨entity, ⟨member, link⟩, rfl⟩
    exact ⟨entity, member, rfl, link⟩
  · rintro ⟨entity, member, rfl, link⟩
    exact ⟨entity, ⟨member, link⟩, rfl⟩

theorem mem_of_entity? {scene : Scene} {id : EntityId} {entity : Entity}
    (found : scene.entity? id = some entity) : entity ∈ scene.entities ∧ entity.id = id :=
  ⟨List.mem_of_find?_eq_some found, by simpa using List.find?_some found⟩

theorem contains_iff {scene : Scene} {id : EntityId} :
    scene.contains id = true ↔ id ∈ scene.entities.map Entity.id := by
  simp [contains, entity?]

theorem entity?_isSome_iff {scene : Scene} {id : EntityId} :
    (scene.entity? id).isSome = true ↔ id ∈ scene.entities.map Entity.id :=
  contains_iff

theorem entity?_eq_none_iff {scene : Scene} {id : EntityId} :
    scene.entity? id = none ↔ id ∉ scene.entities.map Entity.id := by
  simp [entity?]

/-- Where identities are distinct, looking an entity up finds the entity. -/
theorem entity?_eq_some_iff {scene : Scene} (distinct : (scene.entities.map Entity.id).Nodup)
    {id : EntityId} {entity : Entity} :
    scene.entity? id = some entity ↔ entity ∈ scene.entities ∧ entity.id = id := by
  refine ⟨mem_of_entity?, ?_⟩
  rintro ⟨member, rfl⟩
  cases found : scene.entity? entity.id with
  | none => exact absurd (List.mem_map_of_mem member) (entity?_eq_none_iff.mp found)
  | some other =>
      obtain ⟨member', same⟩ := mem_of_entity? found
      rw [List.inj_on_of_nodup_map distinct member' member same]

namespace Forest

variable {scene : Scene} (forest : scene.Forest)
include forest

theorem entity?_of_mem {entity : Entity} (inside : entity ∈ scene.entities) :
    scene.entity? entity.id = some entity :=
  (entity?_eq_some_iff forest.ids_nodup).mpr ⟨inside, rfl⟩

theorem parentOf?_of_mem {entity : Entity} (inside : entity ∈ scene.entities) :
    scene.parentOf? entity.id = entity.parent := by
  rw [parentOf?, forest.entity?_of_mem inside]
  rfl

theorem parentOf?_eq_some_iff {child parent : EntityId} :
    scene.parentOf? child = some parent ↔ child ∈ scene.childIds (some parent) := by
  simp only [parentOf?, Option.bind_eq_some_iff, mem_childIds,
    entity?_eq_some_iff forest.ids_nodup, and_assoc]

/-- A rank that falls along parent links can be taken no larger than the table: count the
entities of smaller rank. -/
theorem exists_depth : ∃ depth : EntityId → Nat, (∀ id, depth id ≤ scene.entities.length) ∧
    ∀ child parent, child ∈ scene.childIds (some parent) → depth parent < depth child := by
  obtain ⟨rank, falls⟩ := forest.ranked
  refine ⟨fun id => (scene.entities.filter fun entity => rank entity.id < rank id).length,
    fun id => List.length_filter_le _ _, fun child parent link => ?_⟩
  obtain ⟨entity, member, rfl, up⟩ := mem_childIds.mp link
  obtain ⟨above, member', rfl⟩ := List.mem_map.mp (forest.parents_exist entity member _ up)
  have lower := falls entity member _ up
  -- Everything of smaller rank than the parent has smaller rank than the child, and so has the
  -- parent itself.
  have sub : (scene.entities.filter fun other => rank other.id < rank above.id) =
      (scene.entities.filter fun other => rank other.id < rank entity.id).filter
        fun other => rank other.id < rank above.id := by
    rw [List.filter_filter]
    apply List.filter_congr
    intro other _
    rw [Bool.eq_iff_iff]
    simp only [Bool.and_eq_true, decide_eq_true_eq]
    omega
  dsimp only
  rw [sub]
  refine List.length_filter_lt_length_iff_exists.mpr ⟨above, ?_, by simp⟩
  exact List.mem_filter.mpr ⟨member', by simpa using lower⟩

/-- The same seen from below: the height of an entity falls along links down. -/
theorem exists_height : ∃ height : EntityId → Nat, (∀ id, height id ≤ scene.entities.length) ∧
    ∀ parent, ∀ child ∈ scene.childIds (some parent), height child < height parent := by
  obtain ⟨depth, small, falls⟩ := forest.exists_depth
  refine ⟨fun id => scene.entities.length - depth id, fun id => Nat.sub_le _ _,
    fun parent child link => ?_⟩
  have := falls child parent link
  have := small child
  dsimp only
  omega

/-- Following parent links upward ends. -/
theorem wellFounded_parent :
    WellFounded fun parent child => scene.parentOf? child = some parent := by
  obtain ⟨depth, _, falls⟩ := forest.exists_depth
  refine Subrelation.wf (fun {parent child} link => ?_) (measure depth).wf
  exact falls child parent (forest.parentOf?_eq_some_iff.mp link)

/-- Following parent links downward ends. -/
theorem wellFounded_child :
    WellFounded fun child parent => scene.parentOf? child = some parent := by
  obtain ⟨height, _, falls⟩ := forest.exists_height
  refine Subrelation.wf (fun {child parent} link => ?_) (measure height).wf
  exact falls parent child (forest.parentOf?_eq_some_iff.mp link)

/-- The links have no circle. -/
theorem not_transGen_self (id : EntityId) :
    ¬ Relation.TransGen (fun parent child => scene.parentOf? child = some parent) id id :=
  fun circle => forest.wellFounded_parent.transGen.asymmetric id id circle circle

/-- The bound of the walk down is never what ends it. -/
theorem walk_eq_subtree {bound : Nat} (enough : scene.entities.length ≤ bound) (id : EntityId) :
    walk (fun parent => scene.childIds (some parent)) bound id = scene.subtree id := by
  obtain ⟨height, small, falls⟩ := forest.exists_height
  exact walk_eq_walk height falls (Nat.le_trans (small id) enough) (small id)

theorem mem_subtree_iff {x id : EntityId} : x ∈ scene.subtree id ↔ scene.Below x id := by
  obtain ⟨height, small, falls⟩ := forest.exists_height
  rw [subtree, mem_walk_iff height falls (small id)]
  simp only [Below, forest.parentOf?_eq_some_iff]

theorem nodup_subtree (id : EntityId) : (scene.subtree id).Nodup := by
  obtain ⟨height, _, falls⟩ := forest.exists_height
  refine nodup_walk height falls (fun parent => ?_) (fun child parent parent' h h' => ?_) _ id
  · exact (List.filter_sublist.map Entity.id).nodup forest.ids_nodup
  · exact Option.some.inj ((forest.parentOf?_eq_some_iff.mpr h).symm.trans
      (forest.parentOf?_eq_some_iff.mpr h'))

/-- The bound of the walk up is never what ends it, also where only some of the links are
shown. -/
theorem climb_eq_climb_length {parent : EntityId → Option EntityId}
    (shown : ∀ child above, parent child = some above → scene.parentOf? child = some above)
    {bound : Nat} (enough : scene.entities.length ≤ bound) (id : EntityId) :
    climb parent bound id = climb parent scene.entities.length id := by
  obtain ⟨depth, small, falls⟩ := forest.exists_depth
  refine climb_eq_climb depth (fun child above link => ?_)
    (Nat.le_trans (small id) enough) (small id)
  exact falls child above (forest.parentOf?_eq_some_iff.mp (shown child above link))

/-- A walk down runs its unbounded recursion. -/
theorem subtree_eq (id : EntityId) :
    scene.subtree id = id :: (scene.childIds (some id)).flatMap scene.subtree := by
  rw [← forest.walk_eq_subtree (Nat.le_succ _) id, walk]
  rfl

/-- A walk up runs its unbounded recursion. -/
theorem climb_length_eq {parent : EntityId → Option EntityId}
    (shown : ∀ child above, parent child = some above → scene.parentOf? child = some above)
    (id : EntityId) :
    climb parent scene.entities.length id =
      id :: ((parent id).map (climb parent scene.entities.length)).getD [] := by
  rw [← forest.climb_eq_climb_length shown (Nat.le_succ _) id, climb]

theorem lineage_eq (id : EntityId) :
    scene.lineage id = id :: ((scene.parentOf? id).map scene.lineage).getD [] :=
  forest.climb_length_eq (fun _ _ link => link) id

theorem isWithin_eq (candidate ancestor : EntityId) :
    scene.isWithin candidate ancestor = (candidate = ancestor ||
      (scene.parentOf? candidate).any fun parent => scene.isWithin parent ancestor) := by
  have swap : (ancestor == candidate) = decide (candidate = ancestor) := by
    rw [Bool.beq_eq_decide_eq]
    exact decide_eq_decide.mpr eq_comm
  rw [isWithin, forest.lineage_eq, List.contains_cons, swap]
  cases scene.parentOf? candidate with
  | none => rfl
  | some parent => rfl

theorem isActive_eq (id : EntityId) :
    scene.isActive id = (scene.entity? id).any fun entity =>
      entity.active && entity.parent.all scene.isActive := by
  rw [isActive, forest.lineage_eq, List.all_cons]
  cases found : scene.entity? id with
  | none => rfl
  | some entity =>
      cases link : entity.parent with
      | none => simp [parentOf?, found, link]
      | some parent => simp [parentOf?, found, link, isActive]

theorem mem_lineage_iff {x id : EntityId} : x ∈ scene.lineage id ↔ scene.Below id x := by
  obtain ⟨depth, small, falls⟩ := forest.exists_depth
  exact mem_climb_iff depth
    (fun child above link => falls child above (forest.parentOf?_eq_some_iff.mp link)) (small id)

theorem isWithin_iff {candidate ancestor : EntityId} :
    scene.isWithin candidate ancestor = true ↔ scene.Below candidate ancestor := by
  rw [isWithin, List.contains_iff_mem, forest.mem_lineage_iff]

/-- Whatever lies below an entity is an entity. -/
theorem mem_ids_of_below {x id : EntityId} (exist : id ∈ scene.entities.map Entity.id)
    (below : scene.Below x id) : x ∈ scene.entities.map Entity.id := by
  rcases ReflTransGen.cases_head below with rfl | ⟨parent, link, _⟩
  · exact exist
  · obtain ⟨entity, member, rfl, _⟩ := mem_childIds.mp (forest.parentOf?_eq_some_iff.mp link)
    exact List.mem_map_of_mem member

theorem below_antisymm {first second : EntityId} (below : scene.Below first second)
    (above : scene.Below second first) : first = second := by
  rcases Relation.reflTransGen_iff_eq_or_transGen.mp below with same | chain
  · exact same.symm
  · have circle := chain.trans_left above
    exact absurd (Relation.transGen_swap.mp circle) (forest.not_transGen_self first)

theorem parentOf?_of_mem_childIds {parent : Option EntityId} {id : EntityId}
    (member : id ∈ scene.childIds parent) : scene.parentOf? id = parent := by
  obtain ⟨entity, inside, rfl, link⟩ := mem_childIds.mp member
  exact (forest.parentOf?_of_mem inside).trans link

/-- An entity does not lie below its children. -/
theorem not_below_child {child parent : EntityId} (link : scene.parentOf? child = some parent) :
    ¬ scene.Below parent child := by
  intro back
  obtain rfl := forest.below_antisymm back (.single link)
  exact forest.not_transGen_self _ (.single link)

/-- Siblings do not lie below each other. -/
theorem eq_of_siblings {parent : Option EntityId} {first second : EntityId}
    (member : first ∈ scene.childIds parent) (member' : second ∈ scene.childIds parent)
    (below : scene.Below first second) : first = second := by
  have link := forest.parentOf?_of_mem_childIds member
  have link' := forest.parentOf?_of_mem_childIds member'
  cases parent with
  | none => exact ((reflTransGen_iff_of_root link).mp below).symm
  | some above =>
      rcases (below_iff_of_parent link).mp below with same | back
      · exact same
      · exact absurd back (forest.not_below_child link')

/-- Siblings have nothing below them in common. -/
theorem eq_of_below_siblings {parent : Option EntityId} {x first second : EntityId}
    (member : first ∈ scene.childIds parent) (member' : second ∈ scene.childIds parent)
    (below : scene.Below x first) (below' : scene.Below x second) : first = second := by
  rcases below.total below' with up | up
  · exact forest.eq_of_siblings member member' up
  · exact (forest.eq_of_siblings member' member up).symm

end Forest

end SceneEdit.Scene
