import SceneEdit.Proofs.Session.Regroup

/-!
# Descendants, seen from below and from above

Whether an entity lies below another one is asked in two directions. Before an entity is moved, the
links are followed upward from its new parent, once by the session for all entities to be moved and
again by the scene for each of them. What is removed or copied is collected by walking downward.
Here the two directions are compared.

The walks stop at the length of the table, so two relations tell first what they do without any
bound: a derivation of `Ascends` is a run of the search upward, and a derivation of `Visits` is one
of the walk downward. In a forest both runs end, by induction along the parent links, and they come
to nothing else than the bounded walks do. After that only the answers are left to compare, and both
say who lies below whom.
-/

namespace SceneEdit

namespace Scene

open Relation (ReflTransGen)

/-! ### Walks without a bound -/

section Unbounded

variable {parent : EntityId → Option EntityId} {children : EntityId → List EntityId}
variable {ancestor : EntityId} {cursor : Option EntityId} {answer answer' : Bool}
variable {ids listed listed' : List EntityId}

/-- A search upward ends: it has found the ancestor, or it has come past a root, or it goes on from
the parent. -/
inductive Ascends (parent : EntityId → Option EntityId) (ancestor : EntityId) :
    Option EntityId → Bool → Prop
  | found : Ascends parent ancestor (some ancestor) true
  | past : Ascends parent ancestor none false
  | up {id : EntityId} {answer : Bool} (other : id ≠ ancestor)
      (rest : Ascends parent ancestor (parent id) answer) :
      Ascends parent ancestor (some id) answer

/-- A walk downward through some entities ends: it lists an entity, then walks through the children
of the entity, and then through the other entities. -/
inductive Visits (children : EntityId → List EntityId) : List EntityId → List EntityId → Prop
  | done : Visits children [] []
  | visit {id : EntityId} {ids below listed : List EntityId}
      (down : Visits children (children id) below) (rest : Visits children ids listed) :
      Visits children (id :: ids) (id :: below ++ listed)

/-- A search has one answer. -/
theorem Ascends.unique (run : Ascends parent ancestor cursor answer)
    (run' : Ascends parent ancestor cursor answer') : answer = answer' := by
  induction run with
  | found =>
      cases run' with
      | found => rfl
      | up other => exact absurd rfl other
  | past =>
      cases run'
      rfl
  | up other _ ih =>
      cases run' with
      | found => exact absurd rfl other
      | up _ rest => exact ih rest

/-- A walk has one listing. -/
theorem Visits.unique (run : Visits children ids listed) (run' : Visits children ids listed') :
    listed = listed' := by
  induction run generalizing listed' with
  | done =>
      cases run'
      rfl
  | visit _ _ below rest =>
      cases run' with
      | visit down next => rw [below down, rest next]

/-- A walk through some entities takes one after the other, each with what is listed below it. -/
theorem Visits.flatMap {lists : EntityId → List EntityId}
    (splits : ∀ id, lists id = id :: (children id).flatMap lists)
    (below : ∀ id ∈ ids, Visits children (children id) ((children id).flatMap lists)) :
    Visits children ids (ids.flatMap lists) := by
  induction ids with
  | nil => exact .done
  | cons id ids ih =>
      obtain ⟨first, others⟩ := List.forall_mem_cons.mp below
      rw [List.flatMap_cons, splits id]
      exact .visit first (ih others)

end Unbounded

namespace Forest

variable {scene : Scene} (forest : scene.Forest)
include forest

/-! ### In a forest -/

/-- The search upward ends, also where only some of the links are shown, and its answer is whether
the bounded walk meets the ancestor. -/
theorem ascends_climb_iff {parent : EntityId → Option EntityId}
    (shown : ∀ child above, parent child = some above → scene.parentOf? child = some above)
    {ancestor id : EntityId} {answer : Bool} :
    Ascends parent ancestor (some id) answer ↔
      answer = (climb parent scene.entities.length id).contains ancestor := by
  have ends : Ascends parent ancestor (some id)
      ((climb parent scene.entities.length id).contains ancestor) := by
    -- Upward along all links, since the links that are shown are some of them.
    induction id using forest.wellFounded_parent.induction with
    | _ id ih =>
        rw [forest.climb_length_eq shown, List.contains_cons]
        by_cases here : id = ancestor
        · subst here
          rw [BEq.rfl, Bool.true_or]
          exact .found
        · rw [beq_false_of_ne (Ne.symm here), Bool.false_or]
          refine .up here ?_
          cases link : parent id with
          | none => exact .past
          | some above => exact ih above (shown id above link)
  constructor
  · exact fun run => run.unique ends
  · rintro rfl
    exact ends

/-- The walk downward through some entities ends, and it lists their subtrees. -/
theorem visits_iff {ids listed : List EntityId} :
    Visits (fun id => scene.childIds (some id)) ids listed ↔
      listed = ids.flatMap scene.subtree := by
  have below : ∀ id, Visits (fun id => scene.childIds (some id)) (scene.childIds (some id))
      ((scene.childIds (some id)).flatMap scene.subtree) := by
    intro id
    induction id using forest.wellFounded_child.induction with
    | _ id ih =>
        refine Visits.flatMap forest.subtree_eq fun child link => ?_
        exact ih child (forest.parentOf?_eq_some_iff.mpr link)
  have ends : Visits (fun id => scene.childIds (some id)) ids (ids.flatMap scene.subtree) :=
    Visits.flatMap forest.subtree_eq fun id _ => below id
  constructor
  · exact fun run => run.unique ends
  · rintro rfl
    exact ends

/-! ### One notion of what lies below -/

theorem isWithin_iff_mem_subtree {candidate ancestor : EntityId} :
    scene.isWithin candidate ancestor = true ↔ candidate ∈ scene.subtree ancestor :=
  forest.isWithin_iff.trans forest.mem_subtree_iff.symm

/-- The links that a host shows lead from an entity to one above it if the host shows all entities
on the way. -/
theorem host_chain_iff {host : Host} {candidate ancestor : EntityId} :
    ReflTransGen (fun child above => host.parentOf? scene child = some above) candidate ancestor ↔
      scene.Below candidate ancestor ∧ ∀ x, scene.Below x ancestor → scene.Below candidate x →
        x ≠ ancestor → host.refuses .viewEntity (some x) none = false := by
  constructor
  · intro chain
    induction chain using ReflTransGen.head_induction_on with
    | refl =>
        exact ⟨.refl, fun x below above proper => absurd (forest.below_antisymm below above) proper⟩
    | head link _ ih =>
        obtain ⟨visible, up⟩ := host_parentOf?_eq_some_iff.mp link
        obtain ⟨below, shown⟩ := ih
        refine ⟨below.head up, fun x within between proper => ?_⟩
        obtain rfl | further := (below_iff_of_parent up).mp between
        · exact visible
        · exact shown x within further proper
  · rintro ⟨below, shown⟩
    induction below using ReflTransGen.head_induction_on with
    | refl => exact .refl
    | @head child above up rest ih =>
        have proper : child ≠ ancestor := by
          rintro rfl
          exact forest.not_below_child up rest
        have visible := shown child (rest.head up) .refl proper
        have onward := ih fun x within further => shown x within (further.head up)
        exact onward.head (host_parentOf?_eq_some_iff.mpr ⟨visible, up⟩)

/-- A host that keeps entities to itself ends the way upward at them. -/
theorem host_isWithin_iff (host : Host) {candidate ancestor : EntityId} :
    host.isWithin scene candidate ancestor = true ↔
      candidate ∈ scene.subtree ancestor ∧ ∀ x ∈ scene.subtree ancestor,
        candidate ∈ scene.subtree x → x ≠ ancestor →
          host.refuses .viewEntity (some x) none = false := by
  obtain ⟨depth, small, falls⟩ := forest.exists_depth
  have climbed : host.isWithin scene candidate ancestor = true ↔
      ReflTransGen (fun child above => host.parentOf? scene child = some above)
        candidate ancestor := by
    rw [Host.isWithin, List.contains_iff_mem, Host.lineage]
    refine mem_climb_iff depth (fun child above link => ?_) (small candidate)
    exact falls child above (forest.parentOf?_eq_some_iff.mp (parentOf?_of_host link))
  simp only [climbed, forest.host_chain_iff, forest.mem_subtree_iff]

/-! ### What asks for descendants -/

/-- A move is refused for a circle exactly if the new parent is in the subtree of what is moved. -/
theorem setParent_circle_iff {id above : EntityId} :
    scene.setParent id (some above) = .error (.wouldCycle above id) ↔
      id ∈ scene.entities.map Entity.id ∧ above ∈ scene.subtree id := by
  rw [setParent_eq_wouldCycle_iff, forest.isWithin_iff_mem_subtree]
  constructor
  · rintro ⟨known, -, within⟩
    exact ⟨known, within⟩
  · rintro ⟨known, within⟩
    exact ⟨known, forest.mem_ids_of_below known (forest.mem_subtree_iff.mp within), within⟩

/-- Removing an entity takes away those from which the search upward finds it. -/
theorem destroy_eq_ok_iff_isWithin {id : EntityId} {changed : Scene} :
    scene.destroy id = .ok changed ↔ id ∈ scene.entities.map Entity.id ∧
      changed = { scene with
        entities := scene.entities.filter fun entity => !scene.isWithin entity.id id } := by
  have same : ∀ entity : Entity,
      (scene.subtree id).contains entity.id = scene.isWithin entity.id id := fun entity => by
    rw [Bool.eq_iff_iff, List.contains_iff_mem, forest.isWithin_iff_mem_subtree]
  simp only [destroy_eq_ok_iff, same]

end Forest

/-- What is copied together with an entity is that from which the search upward finds it. -/
theorem WellFormed.originals_perm {scene : Scene} (wf : scene.WellFormed) {id : EntityId}
    (known : id ∈ scene.entities.map Entity.id) :
    (scene.originals id).Perm
      (scene.entities.filter fun entity => scene.isWithin entity.id id) := by
  have distinct := wf.nodup_subtree id
  rw [← wf.map_id_originals known] at distinct
  refine (List.perm_ext_iff_of_nodup distinct.of_map (wf.ids_nodup.of_map.filter _)).mpr ?_
  intro entity
  rw [wf.mem_originals, List.mem_filter, wf.isWithin_iff_mem_subtree]

end Scene

/-- The check of a session against circles passes exactly if the new parent is in none of the
subtrees of the entities to move. -/
theorem Editor.checkParent_passes_iff {editor : Editor} (views : editor.host.Grants .viewEntity)
    {session : Session} (wf : session.scene.WellFormed) {targets : List EntityId}
    {above : EntityId} :
    ((editor.checkParent targets (some (some above))).run session).1 = .ok () ↔
      ∀ target ∈ targets, above ∉ session.scene.subtree target := by
  have outcome := checkParent_outcome wf views targets above
  simp only [← wf.mem_subtree_iff] at outcome
  rcases ran : (editor.checkParent targets (some (some above))).run session with
    ⟨report | passed, left⟩
  · obtain ⟨-, -, target, member, within⟩ := outcome.error ran
    simp only [reduceCtorEq, false_iff]
    exact fun outside => outside target member within
  · exact iff_of_true rfl (outcome.ok ran).2

namespace Scene

/-- In every reachable scene, and for any two identities, whether there are entities of them or not:
the walk downward ends, and so do the searches upward, that of the scene and that through a host,
and they end with nothing else than what the bounded walks give. The search upward from the first
identity finds the second one exactly if the walk downward from the second one lists the first. A
host that keeps entities to itself may hide the way; a host that shows all of them gives the answer
of the scene.

So all that rests on descendants means the same by them. A move is refused for a circle, and fails
the check that a session makes before it moves anything, exactly if the new parent is in the subtree
of an entity to be moved. What is removed with an entity, and what is copied with it, are the
entities from which the search upward finds it. -/
theorem walks_agree {scene : Scene} (reached : scene.Reachable) (candidate ancestor : EntityId) :
    (∀ listed, Visits (fun id => scene.childIds (some id)) [ancestor] listed ↔
      listed = scene.subtree ancestor) ∧
    (∀ answer, Ascends scene.parentOf? ancestor (some candidate) answer ↔
      answer = scene.isWithin candidate ancestor) ∧
    (scene.isWithin candidate ancestor = true ↔ candidate ∈ scene.subtree ancestor) ∧
    (∀ host : Host,
      (∀ answer, Ascends (host.parentOf? scene) ancestor (some candidate) answer ↔
        answer = host.isWithin scene candidate ancestor) ∧
      (host.isWithin scene candidate ancestor = true ↔
        candidate ∈ scene.subtree ancestor ∧ ∀ x ∈ scene.subtree ancestor,
          candidate ∈ scene.subtree x → x ≠ ancestor →
            host.refuses .viewEntity (some x) none = false) ∧
      (host.Grants .viewEntity →
        (host.isWithin scene candidate ancestor = true ↔ candidate ∈ scene.subtree ancestor))) ∧
    (scene.setParent ancestor (some candidate) = .error (.wouldCycle candidate ancestor) ↔
      ancestor ∈ scene.entities.map Entity.id ∧ candidate ∈ scene.subtree ancestor) ∧
    (∀ (editor : Editor) (session : Session) (targets : List EntityId),
      editor.host.Grants .viewEntity →
        (((editor.checkParent targets (some (some candidate))).run
            { session with scene }).1 = .ok () ↔
          ∀ target ∈ targets, candidate ∉ scene.subtree target)) ∧
    (∀ changed, scene.destroy ancestor = .ok changed ↔
      ancestor ∈ scene.entities.map Entity.id ∧
        changed = { scene with
          entities := scene.entities.filter fun entity => !scene.isWithin entity.id ancestor }) ∧
    ∀ name, ancestor ∈ scene.entities.map Entity.id →
      ∃ root changed originals, scene.duplicate ancestor name = .ok (root, changed) ∧
        originals.Perm (scene.entities.filter fun entity => scene.isWithin entity.id ancestor) ∧
        changed.entities = scene.entities ++
          copies (scene.renamed ancestor name) scene.nextCapability originals := by
  have wf := reached.wellFormed
  have forest := wf.toForest
  refine ⟨fun listed => ?_, fun _ => forest.ascends_climb_iff fun _ _ link => link,
    forest.isWithin_iff_mem_subtree, fun host => ⟨?_, forest.host_isWithin_iff host, ?_⟩,
    forest.setParent_circle_iff, ?_, fun _ => forest.destroy_eq_ok_iff_isWithin, ?_⟩
  · rw [forest.visits_iff, List.flatMap_singleton]
  · exact fun _ => forest.ascends_climb_iff fun _ _ => parentOf?_of_host
  · exact fun views => (views.isWithin_iff forest).trans forest.mem_subtree_iff.symm
  · exact fun editor session targets views => Editor.checkParent_passes_iff views wf
  · intro name known
    exact ⟨_, _, scene.originals ancestor, duplicate_eq_ok_iff.mpr ⟨known, rfl, rfl⟩,
      wf.originals_perm known, rfl⟩

/-- A shelf with a lamp on it, moved from a room into a box. The lamp is found from the box and the
box from the lamp, but not from an identity that no entity has. The box cannot be put onto the lamp,
whereas nothing speaks against the room, and it is removed and copied with all that is in it. -/
theorem walks_agree_of_shelf :
    let room := ({} : Scene).after (.create "Room" none)
    let shelf := (room.after (.create "Shelf" (some ⟨1⟩))).after (.create "Lamp" (some ⟨2⟩))
    let scene := (shelf.after (.create "Box" none)).after (.setParent ⟨2⟩ (some ⟨4⟩))
    let editor : Editor := {}
    Visits (fun id => scene.childIds (some id)) [⟨4⟩] [⟨4⟩, ⟨2⟩, ⟨3⟩] ∧
      Ascends scene.parentOf? ⟨4⟩ (some ⟨3⟩) true ∧
      Ascends scene.parentOf? ⟨4⟩ (some ⟨9⟩) false ∧
      editor.host.isWithin scene ⟨3⟩ ⟨4⟩ = true ∧
      scene.setParent ⟨4⟩ (some ⟨3⟩) = .error (.wouldCycle ⟨3⟩ ⟨4⟩) ∧
      ((editor.checkParent [⟨1⟩] (some (some ⟨3⟩))).run { scene }).1 = .ok () ∧
      (∃ changed, scene.destroy ⟨4⟩ = .ok changed ∧ changed.entities.map Entity.id = [⟨1⟩]) ∧
      ∃ root changed, ∃ originals : List Entity,
        scene.duplicate ⟨4⟩ "Copy" = .ok (root, changed) ∧
          (originals.map Entity.id).Perm [⟨3⟩, ⟨4⟩, ⟨2⟩] := by
  intro room shelf scene editor
  have reached : scene.Reachable :=
    (((((Reachable.fresh _ _).step _).step _).step _).step _).step _
  have views : editor.host.Grants .viewEntity := Host.grants_of_plain rfl _
  obtain ⟨down, up, -, hosts, circle, checked, removed, copied⟩ := walks_agree reached ⟨3⟩ ⟨4⟩
  obtain ⟨root, changed, originals, made, perm, -⟩ := copied "Copy" (by decide)
  have inside : (scene.entities.filter fun entity => scene.isWithin entity.id ⟨4⟩).map Entity.id =
      [⟨3⟩, ⟨4⟩, ⟨2⟩] := by
    decide
  refine ⟨(down _).mpr (by decide), (up _).mpr (by decide), ?_, ?_, circle.mpr (by decide), ?_,
    ⟨_, (removed _).mpr ⟨by decide, rfl⟩, by decide⟩, root, changed, originals, made, ?_⟩
  · exact ((walks_agree reached ⟨9⟩ ⟨4⟩).2.1 _).mpr (by decide)
  · exact ((hosts editor.host).2.2 views).mpr (by decide)
  · exact (checked editor {} [⟨1⟩] views).mpr (by decide)
  · exact inside ▸ perm.map Entity.id

end Scene

end SceneEdit
