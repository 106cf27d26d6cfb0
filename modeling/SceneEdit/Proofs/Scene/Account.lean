import SceneEdit.Proofs.Scene.Later
import SceneEdit.Session.Basic

/-!
# Notes that account for a change

`Accounted before after sent` says what observers can rely on: the notes `sent` tell every
difference between two scenes, each of them once. There are three ways to come by it. A new subtree
is told by one note about its root. Subtrees that are taken away are told by one note each, if none
of them lies in another one. And where entities only change, `Tracks` follows the changes one by
one: it compares the scene an operation began with to the present one, and allows the differences
that some notes tell, whether these were sent already or are still to be sent.
-/

namespace SceneEdit

namespace Entity

variable {next : Int} {may more : Note → Prop} {entity old new : Entity}

/-- What a note about a changed entity tells of: its fields, and which capabilities it has. -/
def profile (entity : Entity) :
    String × String × Nat × Bool × Option EntityId × List CapabilityId :=
  (entity.name, entity.tag, entity.layer, entity.active, entity.parent,
    entity.capabilities.map Capability.id)

/-- An entity that has come from another one by changes that some notes may tell of; capabilities
counted from `next` on are new. -/
structure Follows (next : Int) (may : Note → Prop) (old new : Entity) : Prop where
  id : old.id = new.id
  profile : old.profile = new.profile ∨ may (.changed new.id)
  states : ∀ now ∈ new.capabilities,
    (∃ was ∈ old.capabilities, was.id = now.id ∧ was.state = now.state) ∨
      may (.wrote new.id now.id) ∨ next ≤ now.id.number

namespace Follows

theorem refl (next : Int) (may : Note → Prop) (entity : Entity) : Follows next may entity entity :=
  ⟨rfl, Or.inl rfl, fun now has => Or.inl ⟨now, has, rfl, rfl⟩⟩

theorem mono (follows : Follows next may old new) (weaker : ∀ note, may note → more note) :
    Follows next more old new where
  id := follows.id
  profile := follows.profile.imp_right (weaker _)
  states now has := (follows.states now has).imp_right (Or.imp_left (weaker _))

theorem trans {middle : Entity} (first : Follows next may old middle)
    (second : Follows next may middle new) : Follows next may old new where
  id := first.id.trans second.id
  profile := by
    rcases second.profile with same | told
    · rw [← same, ← second.id]
      exact first.profile
    · exact Or.inr told
  states now has := by
    rcases second.states now has with ⟨between, had, sameId, sameState⟩ | told
    · rw [← sameId, ← sameState, ← second.id]
      exact first.states between had
    · exact Or.inr told

/-- Changes of the fields alone. -/
theorem of_changed (told : may (.changed new.id)) (id : old.id = new.id)
    (capabilities : new.capabilities ⊆ old.capabilities) : Follows next may old new :=
  ⟨id, Or.inr told, fun now has => Or.inl ⟨now, capabilities has, rfl, rfl⟩⟩

theorem setState (capability : CapabilityId) (state : Object)
    (told : may (.wrote entity.id capability)) :
    Follows next may entity (entity.setState capability state) where
  id := rfl
  profile := by
    have ids : (entity.setState capability state).capabilities.map Capability.id =
        entity.capabilities.map Capability.id := by
      simp only [Entity.setState, List.map_map]
      refine List.map_congr_left fun attached _ => ?_
      simp only [Function.comp_apply]
      split <;> rfl
    exact Or.inl (by rw [Entity.profile, Entity.profile, ids]; rfl)
  states now has := by
    obtain ⟨was, had, rfl⟩ := List.mem_map.mp has
    by_cases written : was.id = capability
    · rw [if_pos written]
      exact Or.inr (Or.inl (written ▸ told))
    · rw [if_neg written]
      exact Or.inl ⟨was, had, rfl, rfl⟩

end Follows
end Entity

namespace Scene

variable {base scene changed : Scene} {id : EntityId}

/-! ### Scenes that change entity by entity -/

/-- A scene whose entities are those of another one, changed as some notes may tell. -/
structure Tracks (base : Scene) (may : Note → Prop) (scene : Scene) : Prop where
  later : base.Later scene
  remain : base.entities.map Entity.id ⊆ scene.entities.map Entity.id
  each : ∀ new ∈ scene.entities, ∃ old ∈ base.entities,
    Entity.Follows base.nextCapability may old new

namespace Tracks

variable {may more : Note → Prop}

theorem refl (wf : base.WellFormed) : base.Tracks may base :=
  ⟨.refl wf, List.Subset.refl _, fun entity member => ⟨entity, member, .refl _ _ _⟩⟩

theorem mono (tracks : base.Tracks may scene) (weaker : ∀ note, may note → more note) :
    base.Tracks more scene where
  later := tracks.later
  remain := tracks.remain
  each new member := by
    obtain ⟨old, inside, follows⟩ := tracks.each new member
    exact ⟨old, inside, follows.mono weaker⟩

theorem step (tracks : base.Tracks may scene) (later : scene.Later changed)
    (remain : scene.entities.map Entity.id ⊆ changed.entities.map Entity.id)
    (each : ∀ new ∈ changed.entities, ∃ old ∈ scene.entities,
      Entity.Follows base.nextCapability may old new) : base.Tracks may changed where
  later := tracks.later.trans later
  remain := List.Subset.trans tracks.remain remain
  each new member := by
    obtain ⟨between, inside, follows⟩ := each new member
    obtain ⟨old, before, first⟩ := tracks.each between inside
    exact ⟨old, before, first.trans follows⟩

theorem agrees (tracks : base.Tracks may scene) (later : scene.Later changed)
    (agrees : scene.Agrees changed) : base.Tracks may changed := by
  refine tracks.step later ?_ fun entity member => ⟨entity, ?_, .refl _ _ _⟩
  · rw [agrees.entities]
    exact List.Subset.refl _
  · rwa [agrees.entities] at member

theorem of_modify (tracks : base.Tracks may scene) {change : Entity → Entity}
    (keepsId : ∀ entity, (change entity).id = entity.id)
    (later : scene.Later (scene.modify id change))
    (follows : ∀ entity, entity.id = id →
      Entity.Follows base.nextCapability may entity (change entity)) :
    base.Tracks may (scene.modify id change) := by
  refine tracks.step later ?_ fun entity member => ?_
  · rw [map_modify _ keepsId]
    exact List.Subset.refl _
  · obtain ⟨old, inside, rfl⟩ := mem_modify.mp member
    refine ⟨old, inside, ?_⟩
    split
    · exact follows old ‹_›
    · exact .refl _ _ _

theorem edit (tracks : base.Tracks may scene) (id : EntityId) (edit : RecordEdit)
    (follows : ∀ entity, entity.id = id →
      Entity.Follows base.nextCapability may entity (edit.apply entity)) :
    base.Tracks may (scene.modify id edit.apply) :=
  tracks.of_modify edit.keeps_id (tracks.later.wellFormed.later_edit id edit) follows

theorem detach (tracks : base.Tracks may scene) (told : may (.changed id))
    {capability : CapabilityId} (done : scene.detach id capability = .ok changed) :
    base.Tracks may changed := by
  have later := tracks.later.wellFormed.later_detach done
  obtain ⟨_, _, _, _, _, rfl⟩ := detach_eq_ok_iff.mp done
  refine tracks.of_modify (fun entity => entity.minus_id capability) later ?_
  rintro entity rfl
  exact .of_changed told rfl (List.filter_subset_self _)

theorem setParent (tracks : base.Tracks may scene) (told : may (.changed id))
    {parent : Option EntityId} (done : scene.setParent id parent = .ok changed) :
    base.Tracks may changed := by
  have later := tracks.later.wellFormed.later_setParent done
  obtain ⟨entity, found, -, rfl⟩ := setParent_eq_ok_iff.mp done
  obtain ⟨member, rfl⟩ := mem_of_entity? found
  refine tracks.step later map_id_subset_moved fun other inside => ?_
  rcases mem_moved.mp inside with ⟨old, -⟩ | rfl
  · exact ⟨other, old, .refl _ _ _⟩
  · exact ⟨entity, member, .of_changed told rfl (List.Subset.refl _)⟩

/-- Capabilities that were attached are new, and the entities that have them are told of. -/
theorem attach (tracks : base.Tracks may scene) {added : List (EntityId × CapabilityId)}
    (adds : scene.AddsCapabilities added changed) (later : scene.Later changed)
    (told : ∀ pair ∈ added, may (.changed pair.1)) : base.Tracks may changed := by
  refine tracks.step later ?_ fun new member => ?_
  · rw [adds.map_id]
    exact List.Subset.refl _
  · have old : new.without added ∈ scene.entities := by
      rw [← adds.others.entities]
      exact List.mem_map_of_mem member
    refine ⟨new.without added, old, rfl, ?_, fun now has => ?_⟩
    · by_cases among : ∃ attached ∈ new.capabilities, (new.id, attached.id) ∈ added
      · obtain ⟨attached, -, listed⟩ := among
        exact Or.inr (told _ listed)
      · have same : new.without added = new := by
          rw [Entity.without, List.filter_eq_self.mpr]
          intro attached has
          exact decide_eq_true fun listed => among ⟨attached, has, listed⟩
        exact Or.inl (by rw [same])
    · by_cases listed : (new.id, now.id) ∈ added
      · -- An old capability would have been there before.
        refine Or.inr (Or.inr (Int.not_lt.mp fun small => ?_))
        obtain ⟨before, inside, same, was, had, sameId⟩ := later.owned new member now has
          (Int.lt_of_lt_of_le small tracks.later.nextCapability_le)
        obtain rfl := tracks.later.wellFormed.eq_of_id inside old same
        have kept := List.of_mem_filter had
        rw [sameId] at kept
        exact of_decide_eq_true kept listed
      · exact Or.inl ⟨now, List.mem_filter.mpr ⟨has, decide_eq_true listed⟩, rfl, rfl⟩

end Tracks

/-! ### Subtrees that are taken away -/

/-- Where entities are only taken away, what is left is linked as before. -/
theorem below_iff_of_subset (wf : base.WellFormed) (sceneWf : scene.WellFormed)
    (left : scene.entities ⊆ base.entities) {entity : Entity} (member : entity ∈ scene.entities) :
    scene.Below entity.id id ↔ base.Below entity.id id := by
  have links : ∀ {child above}, child ∈ scene.entities.map Entity.id →
      (scene.parentOf? child = some above ↔ base.parentOf? child = some above) := by
    intro child above known
    rw [sceneWf.parentOf?_eq_some_iff, wf.parentOf?_eq_some_iff, mem_childIds, mem_childIds]
    constructor
    · rintro ⟨record, inside, same, up⟩
      exact ⟨record, left inside, same, up⟩
    · rintro ⟨record, inside, rfl, up⟩
      obtain ⟨kept, here, same⟩ := List.mem_map.mp known
      obtain rfl := wf.eq_of_id (left here) inside same
      exact ⟨kept, here, rfl, up⟩
  have known : entity.id ∈ scene.entities.map Entity.id := List.mem_map_of_mem member
  generalize entity.id = x at known
  constructor
  · intro below
    induction below using Relation.ReflTransGen.head_induction_on with
    | refl => exact .refl
    | head link _ ih =>
        obtain ⟨record, inside, rfl, up⟩ := mem_childIds.mp (sceneWf.parentOf?_eq_some_iff.mp link)
        exact (ih (sceneWf.parents_exist record inside _ up)).head ((links known).mp link)
  · intro below
    induction below using Relation.ReflTransGen.head_induction_on with
    | refl => exact .refl
    | head link _ ih =>
        have shown := (links known).mpr link
        obtain ⟨record, inside, rfl, up⟩ := mem_childIds.mp (sceneWf.parentOf?_eq_some_iff.mp shown)
        exact (ih (sceneWf.parents_exist record inside _ up)).head shown

/-- A scene made from another one by taking away what lies below some entities, none of which lies
below another one. -/
structure Prunes (base : Scene) (roots : List EntityId) (scene : Scene) : Prop where
  wellFormed : scene.WellFormed
  mem_iff : ∀ entity, entity ∈ scene.entities ↔
    entity ∈ base.entities ∧ ∀ root ∈ roots, ¬ base.Below entity.id root
  apart : ∀ root ∈ roots, ∀ other ∈ roots, base.Below root other → root = other
  distinct : roots.Nodup

namespace Prunes

variable {roots : List EntityId}

theorem refl (wf : base.WellFormed) : base.Prunes [] base :=
  ⟨wf, by simp, by simp, List.nodup_nil⟩

/-- An entity that is still there, and not above one that was taken away. -/
theorem destroy (prunes : base.Prunes roots scene) (wf : base.WellFormed)
    (order : ∀ root ∈ roots, base.Below root id → root = id)
    (done : scene.destroy id = .ok changed) : base.Prunes (roots ++ [id]) changed := by
  have changedWf := prunes.wellFormed.destroy done
  obtain ⟨known, rfl⟩ := destroy_eq_ok_iff.mp done
  obtain ⟨entity, member, rfl⟩ := List.mem_map.mp known
  have outside := ((prunes.mem_iff entity).mp member).2
  refine ⟨changedWf, fun other => ?_, ?_, ?_⟩
  · have gone : other ∈ scene.entities → (other.id ∈ scene.subtree entity.id ↔
        base.Below other.id entity.id) := fun inside => by
      rw [prunes.wellFormed.mem_subtree_iff, below_iff_of_subset wf prunes.wellFormed
        (fun _ kept => ((prunes.mem_iff _).mp kept).1) inside]
    simp only [List.mem_filter, List.mem_append, List.mem_singleton, Bool.not_eq_true',
      ← Bool.not_eq_true, List.contains_iff_mem]
    constructor
    · rintro ⟨inside, left⟩
      obtain ⟨old, others⟩ := (prunes.mem_iff other).mp inside
      refine ⟨old, ?_⟩
      rintro root (before | rfl)
      · exact others root before
      · exact fun below => left ((gone inside).mpr below)
    · rintro ⟨old, others⟩
      have inside := (prunes.mem_iff other).mpr
        ⟨old, fun root before => others root (Or.inl before)⟩
      exact ⟨inside, fun below => others _ (Or.inr rfl) ((gone inside).mp below)⟩
  · intro root isRoot other isOther below
    rcases List.mem_append.mp isRoot with before | here <;>
    rcases List.mem_append.mp isOther with before' | here'
    · exact prunes.apart root before other before' below
    · obtain rfl := List.mem_singleton.mp here'
      exact order root before below
    · obtain rfl := List.mem_singleton.mp here
      exact absurd below (outside other before')
    · rw [List.mem_singleton.mp here, List.mem_singleton.mp here']
  · refine List.nodup_append.mpr ⟨prunes.distinct, List.nodup_singleton _, ?_⟩
    intro root before other here same
    obtain rfl := List.mem_singleton.mp here
    exact outside root before (same ▸ .refl)

end Prunes

/-! ### Accounting -/

/-- The notes that were sent tell every difference between two scenes: of each entity that appeared
or disappeared, by a note about exactly one entity that it is or lies below; of each entity that
changed, and each capability that another state was written into, by exactly one note, the one about
a capability naming its owner. No note was sent twice. -/
structure Accounted (before after : Scene) (sent : List Note) : Prop where
  appeared : ∀ id ∈ after.entities.map Entity.id, id ∉ before.entities.map Entity.id →
    ∃! root, .created root ∈ sent ∧ id ∈ after.subtree root
  disappeared : ∀ id ∈ before.entities.map Entity.id, id ∉ after.entities.map Entity.id →
    ∃! root, .destroyed root ∈ sent ∧ id ∈ before.subtree root
  changed : ∀ old ∈ before.entities, ∀ new ∈ after.entities, old.id = new.id →
    old.profile ≠ new.profile → sent.count (.changed new.id) = 1
  wrote : ∀ old ∈ before.entities, ∀ new ∈ after.entities, ∀ was ∈ old.capabilities,
    ∀ now ∈ new.capabilities, was.id = now.id → was.state ≠ now.state →
      sent.count (.wrote new.id now.id) = 1 ∧
        ∀ owner, .wrote owner now.id ∈ sent → owner = new.id
  once : sent.Nodup

/-- A capability that a scene has, if it has it, on one entity. -/
def Owns (base : Scene) (owner : EntityId) (capability : CapabilityId) : Prop :=
  ∀ entity ∈ base.entities, capability ∈ entity.capabilities.map Capability.id → entity.id = owner

/-- Capabilities do not go from one entity to another. -/
theorem Later.owns (later : base.Later scene) (wf : base.WellFormed) {entity : Entity}
    (member : entity ∈ scene.entities) {attached : Capability}
    (has : attached ∈ entity.capabilities) : base.Owns entity.id attached.id := by
  intro old inside had
  obtain ⟨was, had, same⟩ := List.mem_map.mp had
  have small := wf.capability_lt inside had
  rw [same] at small
  obtain ⟨owner, inside', sameOwner, was', had', same'⟩ :=
    later.owned entity member attached has small
  obtain ⟨rfl, -⟩ := wf.eq_of_capability inside inside' had had' (same.trans same'.symm)
  exact sameOwner

namespace Accounted

variable {sent : List Note}

/-- Where all that is left is as it was, only what came and what went has to be told. -/
theorem of_same {whole : Scene} (wf : whole.WellFormed) (old : base.entities ⊆ whole.entities)
    (new : scene.entities ⊆ whole.entities)
    (appeared : ∀ id ∈ scene.entities.map Entity.id, id ∉ base.entities.map Entity.id →
      ∃! root, .created root ∈ sent ∧ id ∈ scene.subtree root)
    (disappeared : ∀ id ∈ base.entities.map Entity.id, id ∉ scene.entities.map Entity.id →
      ∃! root, .destroyed root ∈ sent ∧ id ∈ base.subtree root)
    (once : sent.Nodup) : base.Accounted scene sent where
  appeared := appeared
  disappeared := disappeared
  changed entity member entity' member' same differ := by
    obtain rfl := wf.eq_of_id (old member) (new member') same
    exact absurd rfl differ
  wrote entity member entity' member' was had now has same differ := by
    obtain ⟨-, rfl⟩ := wf.eq_of_capability (old member) (new member') had has same
    exact absurd rfl differ
  once := once

theorem of_agrees (wf : base.WellFormed) (agrees : base.Agrees scene) :
    base.Accounted scene [] := by
  have same := agrees.entities
  refine of_same wf (List.Subset.refl _) (by rw [same]; exact List.Subset.refl _) ?_ ?_
    List.nodup_nil
  · intro id known new
    rw [same] at known
    exact absurd known new
  · intro id known gone
    rw [same] at gone
    exact absurd known gone

theorem of_addsSubtree {root : EntityId} (adds : base.AddsSubtree root scene) :
    base.Accounted scene [.created root] := by
  have old : base.entities ⊆ scene.entities := by
    rw [← adds.others.entities]
    exact List.filter_subset_self _
  refine of_same adds.wellFormed old (List.Subset.refl _) ?_ ?_ (List.nodup_singleton _)
  · intro id known new
    obtain ⟨entity, member, rfl⟩ := List.mem_map.mp known
    have below : entity.id ∈ scene.subtree root := by
      by_contra outside
      have kept : entity ∈ base.entities := by
        rw [← adds.others.entities]
        exact List.mem_filter.mpr ⟨member, by simpa using outside⟩
      exact new (List.mem_map_of_mem kept)
    refine ⟨root, ⟨List.mem_singleton_self _, below⟩, ?_⟩
    rintro other ⟨told, -⟩
    exact Note.created.inj (List.mem_singleton.mp told)
  · intro id known gone
    exact absurd (List.map_subset _ old known) gone

theorem of_prunes {roots : List EntityId} (wf : base.WellFormed)
    (prunes : base.Prunes roots scene) :
    base.Accounted scene (roots.map Note.destroyed) := by
  have left : scene.entities ⊆ base.entities := fun entity member =>
    ((prunes.mem_iff entity).mp member).1
  have told : ∀ {root}, Note.destroyed root ∈ roots.map Note.destroyed ↔ root ∈ roots := by simp
  refine of_same wf (List.Subset.refl _) left ?_ ?_ ?_
  · intro id known new
    exact absurd (List.map_subset _ left known) new
  · intro id known gone
    obtain ⟨entity, member, rfl⟩ := List.mem_map.mp known
    obtain ⟨root, isRoot, below⟩ : ∃ root ∈ roots, base.Below entity.id root := by
      by_contra none
      refine gone (List.mem_map_of_mem
        ((prunes.mem_iff entity).mpr ⟨member, fun root isRoot => ?_⟩))
      exact fun below => none ⟨root, isRoot, below⟩
    refine ⟨root, ⟨told.mpr isRoot, wf.mem_subtree_iff.mpr below⟩, ?_⟩
    rintro other ⟨isOther, below'⟩
    rcases below.total (wf.mem_subtree_iff.mp below') with up | up
    · exact (prunes.apart root isRoot other (told.mp isOther) up).symm
    · exact prunes.apart other (told.mp isOther) root isRoot up
  · exact prunes.distinct.map fun _ _ same => Note.destroyed.inj same

theorem of_tracks (wf : base.WellFormed) (tracks : base.Tracks (· ∈ sent) scene)
    (owners : ∀ owner capability, .wrote owner capability ∈ sent → base.Owns owner capability)
    (once : sent.Nodup) : base.Accounted scene sent where
  appeared id known new := by
    obtain ⟨entity, member, rfl⟩ := List.mem_map.mp known
    obtain ⟨old, inside, follows⟩ := tracks.each entity member
    exact absurd (follows.id ▸ List.mem_map_of_mem inside) new
  disappeared id known gone := absurd (tracks.remain known) gone
  changed old inside new member same differ := by
    obtain ⟨old', inside', follows⟩ := tracks.each new member
    obtain rfl := wf.eq_of_id inside inside' (same.trans follows.id.symm)
    exact List.count_eq_one_of_mem once (follows.profile.resolve_left differ)
  wrote old inside new member was had now has same differ := by
    constructor
    · obtain ⟨old', inside', follows⟩ := tracks.each new member
      refine List.count_eq_one_of_mem once ?_
      rcases follows.states now has with ⟨was', had', sameId, sameState⟩ | told | new
      · obtain ⟨-, rfl⟩ := wf.eq_of_capability inside inside' had had' (same.trans sameId.symm)
        exact absurd sameState differ
      · exact told
      · have small := wf.capability_lt inside had
        rw [same] at small
        omega
    · intro owner told
      have owned := owners owner now.id told old inside (List.mem_map.mpr ⟨was, had, same⟩)
      rw [← owned]
      exact tracks.later.owns wf member has old inside (List.mem_map.mpr ⟨was, had, same⟩)
  once := once

end Accounted
end Scene
end SceneEdit
