import SceneEdit.Proofs.Session.Invariant

/-!
# Reachable scenes

A scene starts empty, with its layers and its transform, and then takes steps: structural requests
made of it directly, edits of records, and operations executed in sessions that hold it. Steps may
come in any order and any number and with any arguments; a refused request is a step that changes
nothing. What all changes keep holds after every step, and so in every reachable scene.
-/

namespace SceneEdit.Scene

/-- What may happen to a scene. -/
inductive Step where
  | create (name : String) (parent : Option EntityId)
  | destroy (id : EntityId)
  | duplicate (id : EntityId) (name : String)
  | setParent (id : EntityId) (parent : Option EntityId)
  | attach (id : EntityId) (type : Descriptor) (state : Object)
  | detach (id : EntityId) (capability : CapabilityId)
  | edit (id : EntityId) (edit : RecordEdit)
  /-- The session is one that holds the scene; the rest of it is arbitrary. -/
  | execute (editor : Editor) (session : Session) (action : String) (params : Token)

/-- The scene after a request: the changed one, or the same if the request is refused. -/
def afterRequest (scene : Scene) (answer : Except SceneError Scene) : Scene :=
  match answer with
  | .ok changed => changed
  | .error _ => scene

/-- The scene after a step. -/
def after (scene : Scene) : Step → Scene
  | .create name parent => scene.afterRequest ((scene.create name parent).map Prod.snd)
  | .destroy id => scene.afterRequest (scene.destroy id)
  | .duplicate id name => scene.afterRequest ((scene.duplicate id name).map Prod.snd)
  | .setParent id parent => scene.afterRequest (scene.setParent id parent)
  | .attach id type state => scene.afterRequest ((scene.attach id type state).map Prod.snd)
  | .detach id capability => scene.afterRequest (scene.detach id capability)
  | .edit id edit => scene.modify id edit.apply
  | .execute editor session action params =>
    (editor.execute { session with scene } action params).2.scene

/-- A scene that a run of steps leads to from a fresh one. -/
inductive Reachable : Scene → Prop
  | fresh (layers : List (String × Nat)) (transform : Option (Descriptor × Object)) :
      Reachable { layers, transform }
  | step {scene : Scene} (reached : Reachable scene) (step : Step) : Reachable (scene.after step)

theorem afterRequest_keeps {P : Scene → Prop} {scene : Scene} {answer : Except SceneError Scene}
    (holds : P scene) (accepted : ∀ changed, answer = .ok changed → P changed) :
    P (scene.afterRequest answer) := by
  cases answer with
  | error refusal => exact holds
  | ok changed => exact accepted changed rfl

/-- An answer that also names what was made. -/
theorem afterRequest_map_keeps {α : Type} {P : Scene → Prop} {scene : Scene}
    {answer : Except SceneError (α × Scene)} (holds : P scene)
    (accepted : ∀ made changed, answer = .ok (made, changed) → P changed) :
    P (scene.afterRequest (answer.map Prod.snd)) := by
  cases answer with
  | error refusal => exact holds
  | ok pair => exact accepted pair.1 pair.2 rfl

theorem Stable.after {P : Scene → Prop} (stable : Stable P) {scene : Scene} (holds : P scene)
    (step : Step) : P (scene.after step) := by
  cases step with
  | create name parent =>
      exact afterRequest_map_keeps holds fun _ _ done => stable.create holds done
  | destroy id => exact afterRequest_keeps holds fun _ done => stable.destroy holds done
  | duplicate id name =>
      exact afterRequest_map_keeps holds fun _ _ done => stable.duplicate holds done
  | setParent id parent => exact afterRequest_keeps holds fun _ done => stable.setParent holds done
  | attach id type state =>
      exact afterRequest_map_keeps holds fun _ _ done => stable.attach holds done
  | detach id capability => exact afterRequest_keeps holds fun _ done => stable.detach holds done
  | edit id edit => exact stable.edit id edit holds
  | execute editor session action params =>
      exact editor.execute_keeps stable { session with scene } action params holds

/-- What holds of fresh scenes and is kept by all changes holds of every reachable scene. -/
theorem Reachable.holds {P : Scene → Prop} (stable : Stable P)
    (start : ∀ layers transform, P { layers, transform }) {scene : Scene}
    (reached : scene.Reachable) : P scene := by
  induction reached with
  | fresh layers transform => exact start layers transform
  | step _ step ih => exact stable.after ih step

theorem Reachable.wellFormed {scene : Scene} (reached : scene.Reachable) : scene.WellFormed :=
  reached.holds wellFormed_stable wellFormed_fresh

/-- A host shows the links of the entities that it shows. -/
theorem host_parentOf?_eq_some_iff {host : Host} {scene : Scene} {child above : EntityId} :
    host.parentOf? scene child = some above ↔
      host.refuses .viewEntity (some child) none = false ∧ scene.parentOf? child = some above := by
  rw [Host.parentOf?, Host.entity?, parentOf?]
  cases host.refuses .viewEntity (some child) none <;> simp

/-- A host shows some of the links that there are. -/
theorem parentOf?_of_host {host : Host} {scene : Scene} {child above : EntityId}
    (link : host.parentOf? scene child = some above) : scene.parentOf? child = some above :=
  (host_parentOf?_eq_some_iff.mp link).2

/-- Every reachable scene is well formed, and its parent links can be followed to the end, upward
and downward. So the walks, bounded by the size of the table, run the recursion that has no bound:
down a subtree, up to an ancestor, up while entities are active, and up as far as a host shows
records. -/
theorem reachable_sound {scene : Scene} (reached : scene.Reachable) :
    scene.WellFormed ∧
      (∀ id, ¬ Relation.TransGen (fun parent child => scene.parentOf? child = some parent) id id) ∧
      (WellFounded fun parent child => scene.parentOf? child = some parent) ∧
      (WellFounded fun child parent => scene.parentOf? child = some parent) ∧
      ∀ id,
        scene.subtree id = id :: (scene.childIds (some id)).flatMap scene.subtree ∧
        (∀ ancestor, scene.isWithin id ancestor = (id = ancestor ||
          (scene.parentOf? id).any fun parent => scene.isWithin parent ancestor)) ∧
        (scene.isActive id = (scene.entity? id).any fun entity =>
          entity.active && entity.parent.all scene.isActive) ∧
        ∀ host : Host, host.lineage scene id =
          id :: ((host.parentOf? scene id).map (host.lineage scene)).getD [] := by
  have wf := reached.wellFormed
  have forest := wf.toForest
  refine ⟨wf, forest.not_transGen_self, forest.wellFounded_parent, forest.wellFounded_child,
    fun id => ⟨forest.subtree_eq id, forest.isWithin_eq id, forest.isActive_eq id, ?_⟩⟩
  intro host
  exact forest.climb_length_eq (fun _ _ => parentOf?_of_host) id

/-- An entity, a copy of it, the copy moved below it, and the request to move the entity below its
copy, which is refused. -/
theorem reachable_sound_of_nested :
    let transform := (⟨⟨"Transform"⟩, "Core", .capability⟩, .empty ⟨"Transform"⟩)
    let lamp := ({ transform := some transform } : Scene).after (.create "Lamp" none)
    let scene := ((lamp.after (.duplicate ⟨1⟩ "Copy")).after (.setParent ⟨2⟩ (some ⟨1⟩))).after
      (.setParent ⟨1⟩ (some ⟨2⟩))
    scene.WellFormed ∧ scene.lineage ⟨2⟩ = [⟨2⟩, ⟨1⟩] :=
  ⟨(reachable_sound (((((Reachable.fresh _ _).step _).step _).step _).step _)).1, by decide⟩

end SceneEdit.Scene
