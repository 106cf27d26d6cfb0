import SceneEdit.Proofs.Scene.Hierarchy
import SceneEdit.Scene.Change

/-!
# What a change does

One statement for each structural change: when the scene carries it out, and the scene that comes
of it. Later proofs take changes apart with these statements and do not open the definitions.
-/

namespace SceneEdit
namespace Scene

variable {scene changed : Scene} {id : EntityId}

/-! ### Requirements -/

theorem requireParent_eq_ok_iff {parent : Option EntityId} :
    scene.requireParent parent = .ok () ↔
      ∀ above, parent = some above → above ∈ scene.entities.map Entity.id := by
  cases parent with
  | none => simp [requireParent]
  | some above =>
      simp only [requireParent, require, Option.some.injEq, forall_eq']
      rw [← entity?_isSome_iff]
      cases scene.entity? above <;> simp [Except.map]

/-! ### Changing records -/

theorem mem_modify {change : Entity → Entity} {entity : Entity} :
    entity ∈ (scene.modify id change).entities ↔
      ∃ old ∈ scene.entities, (if old.id = id then change old else old) = entity :=
  List.mem_map

/-- What a change of records keeps of every record, it keeps of the table. -/
theorem map_modify {α : Type} {change : Entity → Entity} (view : Entity → α)
    (keeps : ∀ entity, view (change entity) = view entity) :
    (scene.modify id change).entities.map view = scene.entities.map view := by
  simp only [modify, List.map_map]
  apply List.map_congr_left
  intro entity _
  simp only [Function.comp_apply]
  split
  · exact keeps entity
  · rfl

theorem modified_id {change : Entity → Entity} (keepsId : ∀ entity, (change entity).id = entity.id)
    (entity : Entity) : (if entity.id = id then change entity else entity).id = entity.id := by
  split
  · exact keepsId entity
  · rfl

theorem entity?_modify {change : Entity → Entity}
    (keepsId : ∀ entity, (change entity).id = entity.id) (other : EntityId) :
    (scene.modify id change).entity? other =
      (scene.entity? other).map fun entity => if entity.id = id then change entity else entity := by
  simp only [entity?, modify, List.find?_map, Function.comp_def, modified_id keepsId]

/-! ### Creating -/

/-- The capabilities an entity is created with. -/
def birthCapabilities (scene : Scene) : List Capability :=
  match scene.transform with
  | some (type, state) => [{ id := ⟨scene.nextCapability⟩, type, state }]
  | none => []

/-- The entity that is created next. -/
def newborn (scene : Scene) (name : String) (parent : Option EntityId) : Entity :=
  { id := ⟨scene.nextEntity⟩, name, tag := defaultTag, layer := 0, active := true, parent
    capabilities := scene.birthCapabilities }

theorem create_eq_ok_iff {name : String} {parent : Option EntityId} :
    scene.create name parent = .ok (id, changed) ↔
      (∀ above, parent = some above → above ∈ scene.entities.map Entity.id) ∧
      id = ⟨scene.nextEntity⟩ ∧
      changed = { scene with
        entities := scene.entities ++ [scene.newborn name parent]
        nextEntity := scene.nextEntity + 1
        nextCapability := scene.nextCapability + scene.birthCapabilities.length } := by
  rw [← requireParent_eq_ok_iff]
  rw [create, newborn, birthCapabilities]
  cases scene.requireParent parent with
  | error refusal => simp [bind, Except.bind]
  | ok _ =>
      simp only [bind, Except.bind, pure, Except.pure, Except.ok.injEq, Prod.mk.injEq, true_and]
      exact and_congr eq_comm eq_comm

/-! ### Destroying -/

theorem destroy_eq_ok_iff :
    scene.destroy id = .ok changed ↔ id ∈ scene.entities.map Entity.id ∧
      changed = { scene with
        entities := scene.entities.filter fun entity =>
          !(scene.subtree id).contains entity.id } := by
  rw [← entity?_isSome_iff]
  rw [destroy, require]
  cases scene.entity? id with
  | none => simp [bind, Except.bind]
  | some entity =>
      simp only [bind, Except.bind, pure, Except.pure, Except.ok.injEq, Option.isSome_some,
        true_and]
      exact eq_comm

/-! ### Copying -/

/-- The entities that a copy of an entity is made from. -/
def originals (scene : Scene) (id : EntityId) : List Entity :=
  (scene.subtree id).filterMap scene.entity?

/-- The identity, name and parent that a copy gets. -/
def renamed (scene : Scene) (id : EntityId) (name : String) (entity : Entity) : Entity :=
  let copyId := copyOf? (scene.subtree id) scene.nextEntity
  { entity with
    id := (copyId entity.id).getD entity.id
    name := if entity.id = id then name else entity.name
    parent := if entity.id = id then entity.parent else entity.parent.bind copyId }

theorem duplicate_eq_ok_iff {name : String} {copy : EntityId} :
    scene.duplicate id name = .ok (copy, changed) ↔
      id ∈ scene.entities.map Entity.id ∧ copy = ⟨scene.nextEntity⟩ ∧
      changed = { scene with
        entities := scene.entities ++
          copies (scene.renamed id name) scene.nextCapability (scene.originals id)
        nextEntity := scene.nextEntity + (scene.subtree id).length
        nextCapability := (scene.originals id).foldl
          (fun next entity => next + entity.capabilities.length) scene.nextCapability } := by
  rw [← entity?_isSome_iff]
  rw [duplicate, require]
  cases scene.entity? id with
  | none => simp [bind, Except.bind]
  | some entity =>
      simp only [bind, Except.bind, pure, Except.pure, Except.ok.injEq, Option.isSome_some,
        true_and, Prod.mk.injEq]
      exact and_congr eq_comm eq_comm

/-- Capability identities counted from a number on. -/
def countedFrom (next : Int) (count : Nat) : List CapabilityId :=
  (List.range count).map fun i : Nat => ⟨next + i⟩

theorem countedFrom_append (next : Int) (first second : Nat) :
    countedFrom next first ++ countedFrom (next + first) second =
      countedFrom next (first + second) := by
  simp only [countedFrom, List.range_add, List.map_append, List.map_map]
  congr 1
  apply List.map_congr_left
  intro i _
  simp [Int.add_assoc]

theorem nodup_countedFrom (next : Int) (count : Nat) : (countedFrom next count).Nodup := by
  apply List.nodup_range.map
  intro i j same
  have := congrArg CapabilityId.number same
  simp only at this
  omega

theorem mem_countedFrom {next : Int} {count : Nat} {id : CapabilityId}
    (member : id ∈ countedFrom next count) : next ≤ id.number ∧ id.number < next + count := by
  obtain ⟨i, inside, rfl⟩ := List.mem_map.mp member
  have := List.mem_range.mp inside
  constructor <;> simp only <;> omega

theorem map_id_renumber (next : Int) (capabilities : List Capability) :
    (renumber next capabilities).map Capability.id = countedFrom next capabilities.length := by
  apply List.ext_getElem (by simp [renumber, countedFrom])
  intro i _ _
  simp [renumber, countedFrom]

/-- New identities change nothing that does not show identities. -/
theorem map_renumber {α : Type} (view : Capability → α)
    (blind : ∀ capability id, view { capability with id } = view capability) (next : Int)
    (capabilities : List Capability) :
    (renumber next capabilities).map view = capabilities.map view := by
  apply List.ext_getElem (by simp [renumber])
  intro i _ _
  simp [renumber, blind]

theorem map_id_copies (rename : Entity → Entity) (next : Int) (entities : List Entity) :
    (copies rename next entities).map Entity.id =
      entities.map fun entity => (rename entity).id := by
  induction entities generalizing next with
  | nil => rfl
  | cons entity rest ih => simp [copies, ih]

/-- A copy has the renamed record and capabilities of the same types as its original. -/
theorem exists_of_mem_copies {rename : Entity → Entity} {next : Int} {entities : List Entity}
    {copy : Entity} (member : copy ∈ copies rename next entities) :
    ∃ entity ∈ entities, copy.id = (rename entity).id ∧ copy.parent = (rename entity).parent ∧
      copy.capabilities.map Capability.type = entity.capabilities.map Capability.type := by
  induction entities generalizing next with
  | nil => cases member
  | cons entity rest ih =>
      rcases List.mem_cons.mp member with rfl | member
      · exact ⟨entity, List.mem_cons_self, rfl, rfl, map_renumber _ (fun _ _ => rfl) _ _⟩
      · obtain ⟨original, inside, facts⟩ := ih member
        exact ⟨original, List.mem_cons_of_mem _ inside, facts⟩

/-- Every entity has a copy: its renamed record with its capabilities renumbered. -/
theorem exists_mem_copies (rename : Entity → Entity) (next : Int) {entities : List Entity}
    {entity : Entity} (member : entity ∈ entities) :
    ∃ first, { rename entity with capabilities := renumber first entity.capabilities } ∈
      copies rename next entities := by
  induction entities generalizing next with
  | nil => cases member
  | cons head rest ih =>
      rcases List.mem_cons.mp member with rfl | member
      · exact ⟨next, List.mem_cons_self⟩
      · obtain ⟨first, inside⟩ := ih (next + head.capabilities.length) member
        exact ⟨first, List.mem_cons_of_mem _ inside⟩

/-- The number of capabilities of some entities. -/
def capabilityCount (entities : List Entity) : Nat :=
  (entities.flatMap Entity.capabilities).length

theorem capabilityCount_cons (entity : Entity) (rest : List Entity) :
    capabilityCount (entity :: rest) = entity.capabilities.length + capabilityCount rest :=
  List.length_append

/-- The capabilities of copies are counted through from one copy to the next. -/
theorem flatMap_copies (rename : Entity → Entity) (next : Int) (entities : List Entity) :
    (copies rename next entities).flatMap (fun copy => copy.capabilities.map Capability.id) =
      countedFrom next (capabilityCount entities) := by
  induction entities generalizing next with
  | nil => rfl
  | cons entity rest ih =>
      simp only [copies, List.flatMap_cons, map_id_renumber, ih, countedFrom_append,
        capabilityCount_cons]

theorem foldl_capabilities (entities : List Entity) (next : Int) :
    entities.foldl (fun next entity => next + (entity.capabilities.length : Int)) next =
      next + capabilityCount entities := by
  induction entities generalizing next with
  | nil => simp [capabilityCount]
  | cons entity rest ih =>
      rw [List.foldl_cons, ih, capabilityCount_cons]
      omega

/-! ### Moving -/

/-- The table with an entity taken to its end and put under another parent. -/
def moved (scene : Scene) (entity : Entity) (parent : Option EntityId) : List Entity :=
  (scene.entities.filter fun other => other.id ≠ entity.id) ++ [{ entity with parent }]

theorem mem_moved {entity other : Entity} {parent : Option EntityId} :
    other ∈ scene.moved entity parent ↔
      other ∈ scene.entities ∧ other.id ≠ entity.id ∨ other = { entity with parent } := by
  simp [moved]

/-- Moving takes no entity away. -/
theorem map_id_subset_moved {entity : Entity} {parent : Option EntityId} :
    scene.entities.map Entity.id ⊆ (scene.moved entity parent).map Entity.id := by
  intro id known
  obtain ⟨record, inside, rfl⟩ := List.mem_map.mp known
  by_cases here : record.id = entity.id
  · exact List.mem_map.mpr ⟨_, mem_moved.mpr (Or.inr rfl), here.symm⟩
  · exact List.mem_map_of_mem (mem_moved.mpr (Or.inl ⟨inside, here⟩))

theorem setParent_eq_ok_iff {parent : Option EntityId} :
    scene.setParent id parent = .ok changed ↔
      ∃ entity, scene.entity? id = some entity ∧
        (∀ above, parent = some above → above ∈ scene.entities.map Entity.id ∧
          scene.isWithin above id = false) ∧
        changed = { scene with entities := scene.moved entity parent } := by
  rw [setParent, require]
  cases found : scene.entity? id with
  | none => simp [bind, Except.bind]
  | some entity =>
      obtain ⟨_, rfl⟩ := mem_of_entity? found
      have known : scene.requireParent parent = .ok () ↔ _ := requireParent_eq_ok_iff
      cases parent with
      | none =>
          simp only [bind, Except.bind, pure, Except.pure, requireParent, Except.ok.injEq,
            Option.some.injEq, reduceCtorEq, false_implies, implies_true, true_and,
            exists_eq_left', moved]
          exact eq_comm
      | some above =>
          simp only [Option.some.injEq, forall_eq'] at known
          cases required : scene.requireParent (some above) with
          | error refusal =>
              have unknown : above ∉ scene.entities.map Entity.id := by
                rw [← known, required]
                simp
              simp [bind, Except.bind, unknown, -List.mem_map]
          | ok _ =>
              rw [required] at known
              have member := known.mp rfl
              cases circle : scene.isWithin above entity.id
              · simp only [bind, Except.bind, pure, Except.pure, Except.ok.injEq, circle,
                  Option.some.injEq, forall_eq', member, true_and, exists_eq_left',
                  Bool.false_eq_true, if_false, moved]
                exact eq_comm
              · simp [bind, Except.bind, throw, throwThe, MonadExceptOf.throw, circle]

/-- A circle is the last thing that a move is refused for: the entity and its new parent exist. -/
theorem setParent_eq_wouldCycle_iff {above : EntityId} :
    scene.setParent id (some above) = .error (.wouldCycle above id) ↔
      id ∈ scene.entities.map Entity.id ∧ above ∈ scene.entities.map Entity.id ∧
        scene.isWithin above id = true := by
  rw [← entity?_isSome_iff, ← entity?_isSome_iff, setParent, requireParent, require, require]
  cases scene.entity? id with
  | none => simp [bind, Except.bind]
  | some entity =>
      cases scene.entity? above with
      | none => simp [bind, Except.bind, Except.map]
      | some parent =>
          cases circle : scene.isWithin above id
          · simp [bind, Except.bind, Except.map, pure, Except.pure, circle]
          · simp [bind, Except.bind, Except.map, throw, throwThe, MonadExceptOf.throw, circle]

/-! ### Attaching and detaching -/

end Scene

namespace Entity

/-- The entity with one more capability at the end. -/
def plus (entity : Entity) (capability : Capability) : Entity :=
  { entity with capabilities := entity.capabilities ++ [capability] }

/-- The entity without the capability that has an identity. -/
def minus (entity : Entity) (id : CapabilityId) : Entity :=
  { entity with capabilities := entity.capabilities.filter fun capability => capability.id ≠ id }

@[simp] theorem setState_id (entity : Entity) (id : CapabilityId) (state : Object) :
    (entity.setState id state).id = entity.id := rfl

theorem mem_of_attached? {entity : Entity} {id : CapabilityId} {capability : Capability}
    (found : entity.attached? id = some capability) :
    capability ∈ entity.capabilities ∧ capability.id = id :=
  ⟨List.mem_of_find?_eq_some found, by simpa using List.find?_some found⟩

theorem exists_attached? {entity : Entity} {capability : Capability}
    (has : capability ∈ entity.capabilities) :
    ∃ attached, entity.attached? capability.id = some attached := by
  apply Option.isSome_iff_exists.mp
  rw [attached?, List.find?_isSome]
  exact ⟨capability, has, by simp⟩

theorem attached?_setState (entity : Entity) (id other : CapabilityId) (state : Object) :
    (entity.setState id state).attached? other = (entity.attached? other).map fun capability =>
      if capability.id = id then { capability with state } else capability := by
  have keeps : ∀ capability : Capability,
      (if capability.id = id then { capability with state } else capability).id =
        capability.id := by
    intro capability
    split <;> rfl
  simp only [attached?, setState, List.find?_map, Function.comp_def, keeps]

@[simp] theorem plus_id (entity : Entity) (capability : Capability) :
    (entity.plus capability).id = entity.id := rfl

@[simp] theorem plus_parent (entity : Entity) (capability : Capability) :
    (entity.plus capability).parent = entity.parent := rfl

@[simp] theorem plus_capabilities (entity : Entity) (capability : Capability) :
    (entity.plus capability).capabilities = entity.capabilities ++ [capability] := rfl

@[simp] theorem minus_id (entity : Entity) (id : CapabilityId) :
    (entity.minus id).id = entity.id := rfl

@[simp] theorem minus_parent (entity : Entity) (id : CapabilityId) :
    (entity.minus id).parent = entity.parent := rfl

@[simp] theorem minus_capabilities (entity : Entity) (id : CapabilityId) :
    (entity.minus id).capabilities =
      entity.capabilities.filter fun capability => capability.id ≠ id := rfl

end Entity

namespace Scene

variable {scene changed : Scene} {id : EntityId}

theorem attach_eq_ok_iff {type : Descriptor} {state : Object} {capability : CapabilityId} :
    scene.attach id type state = .ok (capability, changed) ↔
      id ∈ scene.entities.map Entity.id ∧ scene.isTransform type = false ∧
      capability = ⟨scene.nextCapability⟩ ∧
      changed = { scene.modify id fun entity =>
          entity.plus ⟨⟨scene.nextCapability⟩, type, state⟩ with
        nextCapability := scene.nextCapability + 1 } := by
  rw [← entity?_isSome_iff]
  rw [attach, require]
  cases scene.entity? id with
  | none => simp [bind, Except.bind]
  | some entity =>
      cases permanent : scene.isTransform type
      · simp only [bind, Except.bind, pure, Except.pure, Bool.false_eq_true, if_false,
          Except.ok.injEq, Prod.mk.injEq, Option.isSome_some, true_and]
        exact and_congr eq_comm eq_comm
      · simp [bind, Except.bind, throw, throwThe, MonadExceptOf.throw]

theorem detach_eq_ok_iff {capability : CapabilityId} :
    scene.detach id capability = .ok changed ↔
      ∃ entity attached, scene.entity? id = some entity ∧
        entity.attached? capability = some attached ∧ scene.isTransform attached.type = false ∧
        changed = scene.modify id fun entity => entity.minus capability := by
  rw [detach, require]
  cases scene.entity? id with
  | none => simp [bind, Except.bind]
  | some entity =>
      cases found : entity.attached? capability with
      | none => simp [bind, Except.bind, throw, throwThe, MonadExceptOf.throw, found]
      | some attached =>
          cases permanent : scene.isTransform attached.type
          · simp only [bind, Except.bind, found, permanent, pure, Except.pure, Bool.false_eq_true,
              if_false, Except.ok.injEq, Option.some.injEq, exists_eq_left', exists_and_left,
              true_and]
            exact eq_comm
          · simp [bind, Except.bind, throw, throwThe, MonadExceptOf.throw, found, permanent]

end Scene
end SceneEdit
