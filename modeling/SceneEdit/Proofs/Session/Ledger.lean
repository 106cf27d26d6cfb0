import SceneEdit.Proofs.Scene.Account
import SceneEdit.Proofs.Session.AllOrNothing

/-!
# Telling of changes one by one

An operation on several entities changes one of them after the other and tells of each change after
it was made, and it may fail between any two steps. `Owing` is what holds all the time: the notes
sent so far tell the changes so far, except for those that are still owed, and none of them is among
those that may still be sent ahead. So no note is sent twice: what is sent is taken off from what is
ahead. Where an operation stops and nothing is owed, its notes account for its changes.
-/

namespace SceneEdit

/-- The entity that a note is about. -/
def Note.entity : Note → EntityId
  | created entity => entity
  | destroyed entity => entity
  | changed entity => entity
  | wrote entity _ => entity

/-- The note that an entity has changed, if it has. -/
def Note.changedIf (changed : Bool) (id : EntityId) : List Note :=
  if changed then [.changed id] else []

theorem Note.mem_changedIf {changed : Bool} {id : EntityId} (true : changed = true) :
    Note.changed id ∈ changedIf changed id := by
  simp [changedIf, true]

theorem Note.changedIf_subset (changed : Bool) (id : EntityId) :
    changedIf changed id ⊆ changedIf true id := by
  cases changed with
  | true => exact List.Subset.refl _
  | false => exact List.nil_subset _

namespace Scene

variable {base scene changed : Scene} {notes now owed : List Note} {ahead further : Note → Prop}
variable {id : EntityId} {capability : CapabilityId} {state : Object}

theorem later_stable (base : Scene) : Scene.Stable base.Later where
  create holds done := holds.trans (holds.wellFormed.later_create done)
  destroy holds done := holds.trans (holds.wellFormed.later_destroy done)
  duplicate holds done := holds.trans (holds.wellFormed.later_duplicate done)
  setParent holds done := holds.trans (holds.wellFormed.later_setParent done)
  attach holds done := holds.trans (holds.wellFormed.later_attach done)
  detach holds done := holds.trans (holds.wellFormed.later_detach done)
  edit id edit holds := holds.trans (holds.wellFormed.later_edit id edit)

/-! ### What is told and what is owed -/

/-- Notes that were sent while a scene changed, and that tell all of it but for what is owed. -/
structure Ledger (base : Scene) (owed : List Note) (ahead : Note → Prop) (scene : Scene)
    (sent : List Note) : Prop where
  once : sent.Nodup
  fresh : ∀ note ∈ sent, ¬ ahead note
  owners : ∀ owner capability, .wrote owner capability ∈ sent → base.Owns owner capability
  tracks : base.Tracks (· ∈ sent ++ owed) scene

/-- The notes sent since `notes` tell all changes since `base` but for what is owed. -/
def Owing (base : Scene) (notes owed : List Note) (ahead : Note → Prop) (scene : Scene)
    (now : List Note) : Prop :=
  ∃ sent, now = notes ++ sent ∧ Ledger base owed ahead scene sent

/-- The notes sent since `notes` account for the changes since `base`. -/
def Told (base : Scene) (notes : List Note) (scene : Scene) (now : List Note) : Prop :=
  ∃ sent, now = notes ++ sent ∧ base.Accounted scene sent

theorem Told.of_agrees (wf : base.WellFormed) (agrees : base.Agrees scene) :
    base.Told notes scene notes := ⟨[], by simp, .of_agrees wf agrees⟩

namespace Owing

theorem start (wf : base.WellFormed) : base.Owing notes [] ahead base notes :=
  ⟨[], by simp, List.nodup_nil, by simp, by simp, .refl wf⟩

theorem told (owing : base.Owing notes [] ahead scene now) (wf : base.WellFormed) :
    base.Told notes scene now := by
  obtain ⟨sent, same, ledger⟩ := owing
  refine ⟨sent, same, .of_tracks wf ?_ ledger.owners ledger.once⟩
  simpa using ledger.tracks

theorem mono {more : List Note} (owing : base.Owing notes owed ahead scene now)
    (weaker : owed ⊆ more) (fewer : ∀ note, further note → ahead note) :
    base.Owing notes more further scene now := by
  obtain ⟨sent, same, ledger⟩ := owing
  refine ⟨sent, same, ledger.once, fun note told next => ledger.fresh note told (fewer note next),
    ledger.owners, ledger.tracks.mono fun note told => ?_⟩
  rcases List.mem_append.mp told with before | owed
  · exact List.mem_append_left _ before
  · exact List.mem_append_right _ (weaker owed)

/-- A change that notes may tell which are owed. -/
theorem change (owing : base.Owing notes owed ahead scene now)
    (step : ∀ may, (∀ note ∈ owed, may note) → base.Tracks may scene → base.Tracks may changed) :
    base.Owing notes owed ahead changed now := by
  obtain ⟨sent, same, ledger⟩ := owing
  exact ⟨sent, same, ledger.once, ledger.fresh, ledger.owners,
    step _ (fun _ owed => List.mem_append_right _ owed) ledger.tracks⟩

/-- Sending a note that is owed. -/
theorem note {note : Note} (owing : base.Owing notes (note :: owed) ahead scene now)
    (next : ahead note) (fewer : ∀ other, further other → ahead other ∧ other ≠ note)
    (owner : ∀ entity capability, note = .wrote entity capability → base.Owns entity capability) :
    base.Owing notes owed further scene (now ++ [note]) := by
  obtain ⟨sent, rfl, ledger⟩ := owing
  refine ⟨sent ++ [note], List.append_assoc .., ?_, ?_, ?_, by simpa using ledger.tracks⟩
  · refine List.nodup_append.mpr ⟨ledger.once, List.nodup_singleton _, ?_⟩
    rintro told before other here rfl
    exact ledger.fresh told before (List.mem_singleton.mp here ▸ next)
  · intro told member follows
    rcases List.mem_append.mp member with before | here
    · exact ledger.fresh told before (fewer told follows).1
    · exact (fewer told follows).2 (List.mem_singleton.mp here)
  · intro entity capability member
    rcases List.mem_append.mp member with before | here
    · exact ledger.owners entity capability before
    · exact owner entity capability (List.mem_singleton.mp here).symm

/-- A change and the note that tells it. -/
theorem tell {note : Note} (owing : base.Owing notes [] ahead scene now)
    (step : ∀ may, may note → base.Tracks may scene → base.Tracks may changed) (next : ahead note)
    (fewer : ∀ other, further other → ahead other ∧ other ≠ note)
    (owner : ∀ entity capability, note = .wrote entity capability → base.Owns entity capability) :
    base.Owing notes [] further changed (now ++ [note]) := by
  have owed := owing.mono (List.nil_subset [note]) fun _ next => next
  refine Owing.note (owed.change fun may told => ?_) next fewer owner
  exact step may (told note (List.mem_singleton_self _))

theorem later (owing : base.Owing notes owed ahead scene now) : base.Later scene := by
  obtain ⟨_, _, ledger⟩ := owing
  exact ledger.tracks.later

end Owing

/-- The notes about one of some entities. -/
def About (ids : List EntityId) (note : Note) : Prop := note.entity ∈ ids

/-- When a note about an entity is sent, those about others are still ahead. -/
theorem About.tail {ids : List EntityId} {note : Note} (new : note.entity ∉ ids) (other : Note)
    (next : About ids other) : About (note.entity :: ids) other ∧ other ≠ note :=
  ⟨List.mem_cons_of_mem _ next, fun same => new (same ▸ next)⟩

/-- Nothing needs to be ahead. -/
theorem Owing.stop (owing : base.Owing notes owed ahead scene now) :
    base.Owing notes owed (About []) scene now :=
  owing.mono (List.Subset.refl _) fun _ none => (List.not_mem_nil none).elim

/-! ### States of capabilities -/

/-- An entity has a capability in a state. -/
def Holds (scene : Scene) (id : EntityId) (capability : CapabilityId) (state : Object) : Prop :=
  ∃ entity attached, scene.entity? id = some entity ∧
    entity.attached? capability = some attached ∧ attached.state = state

theorem Holds.owns (holds : scene.Holds id capability state) (wf : base.WellFormed)
    (later : base.Later scene) : base.Owns id capability := by
  obtain ⟨entity, attached, found, here, -⟩ := holds
  obtain ⟨member, rfl⟩ := mem_of_entity? found
  obtain ⟨has, rfl⟩ := Entity.mem_of_attached? here
  exact later.owns wf member has

/-- Writing the state that a capability has changes nothing. -/
theorem Holds.setState_eq (holds : scene.Holds id capability state) (wf : scene.WellFormed) :
    (scene.modify id fun entity => entity.setState capability state) = scene := by
  obtain ⟨entity, attached, found, here, rfl⟩ := holds
  obtain ⟨member, rfl⟩ := mem_of_entity? found
  obtain ⟨has, rfl⟩ := Entity.mem_of_attached? here
  have same : entity.setState attached.id attached.state = entity := by
    rw [Entity.setState]
    have capabilities : entity.capabilities.map (fun other =>
        if other.id = attached.id then { other with state := attached.state } else other) =
          entity.capabilities := by
      refine (List.map_congr_left fun other has' => ?_).trans (List.map_id _)
      by_cases written : other.id = attached.id
      · obtain ⟨-, rfl⟩ := wf.eq_of_capability member member has' has written
        exact if_pos rfl
      · exact if_neg written
    rw [capabilities]
  have entities : scene.entities.map (fun other =>
      if other.id = entity.id then other.setState attached.id attached.state else other) =
        scene.entities := by
    refine (List.map_congr_left fun other member' => ?_).trans (List.map_id _)
    by_cases changed : other.id = entity.id
    · obtain rfl := wf.eq_of_id member' member changed
      rw [if_pos rfl, same]
      rfl
    · exact if_neg changed
  rw [modify, entities]

theorem Carries.fullName_eq {type other : Descriptor} {pair : EntityId × CapabilityId}
    (carried : scene.Carries type pair) (carried' : scene.Carries other pair) :
    type.fullName = other.fullName := by
  obtain ⟨entity, attached, found, here, same⟩ := carried
  obtain ⟨entity', attached', found', here', same'⟩ := carried'
  rw [found, Option.some.injEq] at found'
  subst found'
  rw [here, Option.some.injEq] at here'
  subst here'
  exact same.symm.trans same'

/-- Writing a state makes no capability. -/
theorem Carries.of_setState {type : Descriptor} {pair : EntityId × CapabilityId}
    (carried : (scene.modify id fun entity => entity.setState capability state).Carries type pair) :
    scene.Carries type pair := by
  obtain ⟨entity, attached, found, here, same⟩ := carried
  rw [entity?_modify fun entity => entity.setState_id capability state] at found
  obtain ⟨old, foundOld, rfl⟩ := Option.map_eq_some_iff.mp found
  split at here
  · rw [Entity.attached?_setState] at here
    obtain ⟨was, had, rfl⟩ := Option.map_eq_some_iff.mp here
    refine ⟨old, was, foundOld, had, ?_⟩
    rw [← same]
    split <;> rfl
  · exact ⟨old, attached, foundOld, here, same⟩

theorem Tracks.setState {may : Note → Prop} (tracks : base.Tracks may scene)
    (told : may (.wrote id capability)) (state : Object) :
    base.Tracks may (scene.modify id fun entity => entity.setState capability state) := by
  refine tracks.edit id (.setState capability state) ?_
  rintro entity rfl
  exact .setState capability state told

end Scene

end SceneEdit
