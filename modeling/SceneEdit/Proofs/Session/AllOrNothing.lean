import SceneEdit.Proofs.Query.Search
import SceneEdit.Proofs.Session.Atomic
import SceneEdit.Proofs.Session.Reachable

/-!
# All or nothing

Operations that change the structure of a scene do all of what they are asked for or nothing.
Creating, copying and attaching work their way forward and undo what they have done if anything goes
wrong, so they need a host that lets them undo; what else the host refuses does not matter.
Detaching, destroying and writing cannot be undone: they look everything up before the first change,
and on a host that refuses nothing no change fails after that.
-/

namespace SceneEdit

namespace Scene

variable {scene : Scene} {type : Descriptor} {pair : EntityId × CapabilityId}

/-- An entity has a capability of a type, and the scene finds it by its identity. -/
def Carries (scene : Scene) (type : Descriptor) (pair : EntityId × CapabilityId) : Prop :=
  ∃ entity attached, scene.entity? pair.1 = some entity ∧
    entity.attached? pair.2 = some attached ∧ attached.type.fullName = type.fullName

theorem isTransform_congr {other : Descriptor} (same : other.fullName = type.fullName) :
    scene.isTransform other = scene.isTransform type := by
  unfold isTransform
  rw [same]

theorem Carries.detach_eq_ok (carried : scene.Carries type pair)
    (removable : scene.isTransform type = false) :
    scene.detach pair.1 pair.2 =
      .ok (scene.modify pair.1 fun entity => entity.minus pair.2) := by
  obtain ⟨entity, attached, found, here, same⟩ := carried
  exact detach_eq_ok_iff.mpr
    ⟨entity, attached, found, here, (isTransform_congr same).trans removable, rfl⟩

/-- Nothing takes a transform away. -/
theorem Carries.detach_ne_ok (carried : scene.Carries type pair)
    (permanent : scene.isTransform type = true) (changed : Scene) :
    scene.detach pair.1 pair.2 ≠ .ok changed := by
  intro done
  obtain ⟨entity, attached, found, here, same⟩ := carried
  obtain ⟨entity', attached', found', here', removable, _⟩ := detach_eq_ok_iff.mp done
  rw [found, Option.some.injEq] at found'
  subst found'
  rw [here, Option.some.injEq] at here'
  subst here'
  rw [isTransform_congr same, permanent] at removable
  cases removable

theorem Carries.of_modify_ne {id : EntityId} {change : Entity → Entity}
    (keepsId : ∀ entity, (change entity).id = entity.id) (carried : scene.Carries type pair)
    (different : pair.1 ≠ id) : (scene.modify id change).Carries type pair := by
  obtain ⟨entity, attached, found, here, same⟩ := carried
  refine ⟨entity, attached, ?_, here, same⟩
  rw [entity?_modify keepsId, found, Option.map_some, (mem_of_entity? found).2, if_neg different]

/-- Another state is no other capability. -/
theorem Carries.setState (carried : scene.Carries type pair) (id : EntityId)
    (capability : CapabilityId) (state : Object) :
    (scene.modify id fun entity => entity.setState capability state).Carries type pair := by
  obtain ⟨entity, attached, found, attachedHere, same⟩ := carried
  by_cases here : entity.id = id
  · refine ⟨entity.setState capability state,
      if attached.id = capability then { attached with state } else attached, ?_, ?_, ?_⟩
    · rw [entity?_modify fun entity => entity.setState_id capability state, found,
        Option.map_some, if_pos here]
    · rw [Entity.attached?_setState, attachedHere, Option.map_some]
    · split <;> exact same
  · refine Carries.of_modify_ne (fun entity => entity.setState_id capability state)
      ⟨entity, attached, found, attachedHere, same⟩ ?_
    rwa [← (mem_of_entity? found).2]

/-- The first capability of a type is carried. -/
theorem WellFormed.carries (wf : scene.WellFormed) {entity : Entity} {capability : Capability}
    (member : entity ∈ scene.entities)
    (found : entity.capability? type.fullName = some capability) :
    scene.Carries type (entity.id, capability.id) := by
  have has := List.mem_of_find?_eq_some found
  refine ⟨entity, capability, wf.entity?_of_mem member, ?_,
    by simpa using List.find?_some found⟩
  obtain ⟨other, here⟩ := Entity.exists_attached? has
  obtain ⟨hasOther, same⟩ := Entity.mem_of_attached? here
  have distinct := (List.nodup_flatMap.mp wf.capabilities_nodup).1 entity member
  rw [here, List.inj_on_of_nodup_map distinct hasOther has same]

end Scene

namespace Host

variable {host : Host} {scene : Scene}

/-- A host shows entities of the scene. -/
theorem mem_of_shown {id : EntityId} {entity : Entity}
    (shown : host.entity? scene id = some entity) : entity ∈ scene.entities ∧ entity.id = id := by
  rw [Host.entity?] at shown
  split at shown
  · cases shown
  · exact Scene.mem_of_entity? shown

theorem mem_of_record {id : EntityId} {entity : Entity}
    (found : host.record scene id = .ok entity) : entity ∈ scene.entities ∧ entity.id = id := by
  rw [record] at found
  split at found
  · rename_i shown
    cases found
    exact mem_of_shown shown
  · cases found

theorem id_of_summary {id : EntityId} {summary : EntitySummary}
    (shown : host.summary scene id = .ok summary) : summary.id = id := by
  obtain ⟨entity, found, same⟩ := bind_eq_ok_iff.mp shown
  cases same
  exact (mem_of_record found).2

/-- There is one summary for each entity. -/
theorem map_id_summaries {ids : List EntityId} {entities : List EntitySummary}
    (shown : ids.mapM (host.summary scene) = .ok entities) :
    entities.map EntitySummary.id = ids := by
  induction ids generalizing entities with
  | nil =>
      cases shown
      rfl
  | cons id rest ih =>
      rw [List.mapM_cons] at shown
      obtain ⟨first, here, shown⟩ := bind_eq_ok_iff.mp shown
      obtain ⟨others, later, same⟩ := bind_eq_ok_iff.mp shown
      cases same
      rw [List.map_cons, id_of_summary here, ih later]

theorem summary_eq_ok (views : host.Grants .viewEntity) {id : EntityId}
    (member : id ∈ scene.entities.map Entity.id) :
    ∃ summary, host.summary scene id = .ok summary := by
  obtain ⟨entity, found⟩ := Option.isSome_iff_exists.mp (Scene.entity?_isSome_iff.mpr member)
  rw [summary, record, views.entity?, found]
  exact ⟨_, rfl⟩

theorem carries_of_capabilityOf (wf : scene.WellFormed) {type : Descriptor} {id : EntityId}
    {capability : Capability} (found : host.capabilityOf scene type id = .ok capability) :
    scene.Carries type (id, capability.id) := by
  obtain ⟨entity, shown, has⟩ := bind_eq_ok_iff.mp found
  obtain ⟨member, rfl⟩ := mem_of_record shown
  split at has
  · rename_i first
    cases has
    exact wf.carries member first
  · cases has

theorem capabilitiesOf_eq_ok (wf : scene.WellFormed) {type : Descriptor} {ids : List EntityId}
    {pairs : List (EntityId × CapabilityId)}
    (found : host.capabilitiesOf scene type ids = .ok pairs) :
    pairs.map Prod.fst = ids ∧ ∀ pair ∈ pairs, scene.Carries type pair := by
  induction ids generalizing pairs with
  | nil =>
      cases found
      exact ⟨rfl, by simp⟩
  | cons id rest ih =>
      unfold capabilitiesOf at found ih
      rw [List.mapM_cons] at found
      obtain ⟨pair, first, found⟩ := bind_eq_ok_iff.mp found
      obtain ⟨others, later, found⟩ := bind_eq_ok_iff.mp found
      cases found
      obtain ⟨capability, has, same⟩ := bind_eq_ok_iff.mp first
      cases same
      obtain ⟨ids, carried⟩ := ih later
      exact ⟨by simp [ids], List.forall_mem_cons.mpr ⟨carries_of_capabilityOf wf has, carried⟩⟩

end Host

namespace Editor

open Edit

variable {editor : Editor} {scene base : Scene} {notes : List Note} {id : EntityId}

/-! ### What looking up finds -/

/-- Targets are what a search gives. -/
theorem targets_of_find {query : Query} {fact : List EntityId → Prop}
    (gives : ∀ cache, (editor.host.find scene cache query).Gives fun found => fact found.1)
    (session : Session) (same : session.scene = scene) :
    WP (editor.targets query) (fun found _ => fact found) (fun _ _ => True) session := by
  subst same
  rw [targets, search, WP.bind_iff, WP.bind_iff, WP.get_iff, WP.bind_iff, WP.ofAttempt_iff]
  cases answer : (editor.host.find session.scene session.types query).result with
  | error report => trivial
  | ok found =>
      dsimp only
      rw [WP.bind_iff, WP.modify_iff, WP.pure_iff]
      split
      · exact WP.fail_iff.mpr trivial
      · exact WP.pure_iff.mpr (gives session.types found answer)

theorem targets_finds (scene : Scene) (query : Query) (session : Session)
    (same : session.scene = scene) :
    WP (editor.targets query)
      (fun found _ => found.Nodup ∧ found ⊆ scene.entities.map Entity.id) (fun _ _ => True)
      session :=
  targets_of_find (fun cache => editor.host.find_gives scene cache query) session same

theorem capabilitiesOf_finds (wf : scene.WellFormed) (type : Descriptor) (ids : List EntityId)
    (session : Session) (same : session.scene = scene) :
    WP (editor.capabilitiesOf type ids)
      (fun pairs _ => pairs.map Prod.fst = ids ∧ ∀ pair ∈ pairs, scene.Carries type pair)
      (fun _ _ => True) session := by
  subst same
  rw [capabilitiesOf, WP.bind_iff, WP.scene_iff, WP.ofExcept_iff]
  cases answer : editor.host.capabilitiesOf session.scene type ids with
  | error report => trivial
  | ok pairs => exact Host.capabilitiesOf_eq_ok wf answer

theorem summaries_ids (ids : List EntityId) (session : Session) :
    WP (editor.summaries ids) (fun entities _ => entities.map EntitySummary.id = ids)
      (fun _ _ => True) session := by
  rw [summaries, WP.bind_iff, WP.scene_iff, WP.ofExcept_iff]
  cases shown : ids.mapM (editor.host.summary session.scene) with
  | error report => trivial
  | ok entities => exact Host.map_id_summaries shown

theorem summaries_succeeds (views : editor.host.Grants .viewEntity) (ids : List EntityId) :
    Succeeds (fun scene => ids ⊆ scene.entities.map Entity.id) (editor.summaries ids)
      fun _ => True := by
  intro session known
  have all : ∃ shown, ids.mapM (editor.host.summary session.scene) = .ok shown := by
    induction ids with
    | nil => exact ⟨[], rfl⟩
    | cons id rest ih =>
        obtain ⟨here, others⟩ := List.cons_subset.mp known
        obtain ⟨first, done⟩ := Host.summary_eq_ok views here
        obtain ⟨later, doneLater⟩ := ih others
        refine ⟨first :: later, ?_⟩
        rw [List.mapM_cons, done, doneLater]
        rfl
  obtain ⟨shown, done⟩ := all
  rw [summaries, WP.bind_iff, WP.scene_iff, WP.ofExcept_iff, done]
  trivial

/-! ### Creating and copying -/

theorem addsSubtree_stableAt :
    Scene.StableAt id fun scene sent => base.AddsSubtree id scene ∧ sent = notes where
  setParent holds done := ⟨holds.1.setParent done, holds.2⟩
  attach holds done := ⟨holds.1.attach done, holds.2⟩
  detach holds done := ⟨holds.1.detach done, holds.2⟩
  edit edit holds := ⟨holds.1.edit edit, holds.2⟩

theorem discard_restores (destroys : editor.host.Grants .destroyEntity)
    {failed : Report → Session → Prop} {session : Session}
    (added : base.AddsSubtree id session.scene) :
    WP (editor.discard id)
      (fun _ left => base.Agrees left.scene ∧ left.notes = session.notes) failed session := by
  obtain ⟨changed, done, agrees⟩ := added.destroy
  have carried : (editor.destroyRequest id session.scene).result = .ok ((), changed) :=
    destroyRequest_eq_ok_iff.mpr ⟨destroys.refuses _ _, done⟩
  rw [discard, WP.bind_iff, WP.request_iff, carried]
  exact WP.pure_iff.mpr ⟨agrees, rfl⟩

theorem newSummary_succeeds (views : editor.host.Grants .viewEntity) :
    Succeeds (base.AddsSubtree id) (editor.summaries [id]) fun _ => True :=
  (summaries_succeeds views [id]).of_imp fun _ added =>
    List.cons_subset.mpr ⟨added.mem_ids, List.nil_subset _⟩

/-- A new entity is completed or destroyed again. -/
theorem completeOrDiscard {α β : Type} {x : Edit α} {f : α → Edit β} {adjust : Report → Report}
    (destroys : editor.host.Grants .destroyEntity)
    (completes : Keeps (fun scene sent => base.AddsSubtree id scene ∧ sent = notes) x)
    (finishes : ∀ a, Succeeds (base.AddsSubtree id) (f a) fun _ => True) {session : Session}
    (added : base.AddsSubtree id session.scene) (same : session.notes = notes) :
    WP (x.orUndo (editor.discard id) adjust >>= f) (fun _ _ => True)
      (fun _ left => base.Agrees left.scene ∧ left.notes = notes) session := by
  rw [WP.bind_iff, WP.orUndo_iff]
  refine (completes session ⟨added, same⟩).mono ?_ ?_
  · rintro a left ⟨added, _⟩
    exact (finishes a).never_fails added
  · rintro report left ⟨added, rfl⟩
    exact discard_restores destroys added

theorem create_atomic (wf : scene.WellFormed) (destroys : editor.host.Grants .destroyEntity)
    (views : editor.host.Grants .viewEntity) (params : Create) :
    Atomic scene notes (editor.create params) := by
  apply Atomic.bind_quiet fun _ => editor.draft_keeps params
  intro draft
  apply Atomic.require_bind
  intro id changed session made here same
  subst here
  have added := Scene.AddsSubtree.create wf (createRequest_eq_ok_iff.mp made).2
  refine completeOrDiscard destroys (editor.populate_keeps addsSubtree_stableAt _ _ _ _)
    (fun written => ?_) added same
  exact (Succeeds.note _).bind fun _ => (Succeeds.tell _ _ _).bind fun _ =>
    (newSummary_succeeds views).bind fun _ => Succeeds.pure _

theorem duplicate_atomic (wf : scene.WellFormed) (destroys : editor.host.Grants .destroyEntity)
    (views : editor.host.Grants .viewEntity) (params : Duplicate) :
    Atomic scene notes (editor.duplicate params) := by
  apply Atomic.bind_quiet (fun _ => editor.firstTarget_keeps _)
  intro source
  apply Atomic.bind_quiet (fun _ => editor.newParent_keeps _)
  intro parent
  refine Atomic.ite
    (Atomic.bind_quiet (fun _ => editor.transformType_keeps.map) fun transform => ?_)
    (Atomic.bind_quiet (fun _ => Keeps.pure none) fun transform => ?_) <;>
  · apply Atomic.bind_quiet (fun _ => editor.copyName_keeps source _)
    intro name
    apply Atomic.require_bind
    intro copy changed session made here same
    subst here
    have added := Scene.AddsSubtree.duplicate wf (duplicateRequest_eq_ok_iff.mp made).2
    refine completeOrDiscard destroys
      (editor.placeCopy_keeps addsSubtree_stableAt parent transform params) (fun _ => ?_) added same
    exact (Succeeds.note _).bind fun _ => (Succeeds.tell _ _ _).bind fun _ =>
      (newSummary_succeeds views).bind fun _ => Succeeds.pure _

/-! ### Attaching -/

/-- Capabilities that were attached are all detached again, and those before them stay. -/
theorem detachAll_restores (removes : editor.host.Grants .removeCapability)
    (kept : List (EntityId × CapabilityId)) {dropped : List (EntityId × CapabilityId)}
    {failed : Report → Session → Prop} {session : Session}
    (adds : base.AddsCapabilities (kept ++ dropped) session.scene) (same : session.notes = notes) :
    WP (editor.detachAll dropped)
      (fun _ left => base.AddsCapabilities kept left.scene ∧ left.notes = notes) failed
      session := by
  induction dropped generalizing session with
  | nil => exact WP.pure_iff.mpr ⟨by simpa using adds, same⟩
  | cons pair rest ih =>
      have split : ∀ other, other ∈ kept ++ pair :: rest ↔
          other = (pair.1, pair.2) ∨ other ∈ kept ++ rest := by
        intro other
        simp only [List.mem_append, List.mem_cons]
        exact or_left_comm
      rw [detachAll, WP.bind_iff, WP.request_iff]
      cases answer : (editor.detachRequest pair.1 pair.2 session.scene).result with
      | error refusal =>
          have refused : ∀ changed, session.scene.detach pair.1 pair.2 ≠ .ok changed := by
            intro changed done
            have carried : (editor.detachRequest pair.1 pair.2 session.scene).result =
              .ok ((), changed) := detachRequest_eq_ok_iff.mpr ⟨removes.refuses _ _, done⟩
            rw [answer] at carried
            cases carried
          refine WP.bind_iff.mpr (WP.tell_iff.mpr (ih ?_ same))
          exact adds.of_detach_error split refused
      | ok changed =>
          refine ih ?_ same
          exact adds.detach split (detachRequest_eq_ok_iff.mp answer).2

/-- A capability is attached, or detached again if it cannot be written. -/
theorem attach_restores (removes : editor.host.Grants .removeCapability) (type : Descriptor)
    (properties : Entries) {added : List (EntityId × CapabilityId)} {session : Session}
    (adds : base.AddsCapabilities added session.scene) (same : session.notes = notes) :
    WP (editor.attach id type properties)
      (fun capability left => base.AddsCapabilities (added ++ [(id, capability)]) left.scene ∧
        left.notes = notes)
      (fun _ left => base.AddsCapabilities added left.scene ∧ left.notes = notes) session := by
  rw [attach, WP.bind_iff, WP.ofOption_iff]
  cases editor.host.env.catalog.instantiate? type.fullName with
  | none => exact ⟨adds, same⟩
  | some state =>
      refine WP.bind_iff.mpr (WP.require_iff.mpr ?_)
      cases answer : (editor.attachRequest id type state session.scene).result with
      | error refusal => exact ⟨adds, same⟩
      | ok made =>
          have attached := adds.attach (attachRequest_eq_ok_iff.mp answer).2
          dsimp only
          split
          · have writes : Keeps (fun scene sent =>
                base.AddsCapabilities (added ++ [(id, made.1)]) scene ∧ sent = notes)
                (editor.writeAll id type made.1 properties) :=
              writeAll_keeps_of_setState
                (fun _ _ state holds => ⟨holds.1.setState (by simp) state, holds.2⟩) editor _ _
            refine WP.bind_iff.mpr (WP.orUndo_iff.mpr ((writes _ ?_).mono ?_ ?_))
            · exact ⟨attached, same⟩
            · exact fun _ _ holds => WP.pure_iff.mpr holds
            · exact fun report left holds => detachAll_restores removes added holds.1 holds.2
          · exact WP.pure_iff.mpr ⟨attached, same⟩

/-- Capabilities are all attached, or detached again together with those attached before. -/
theorem attachAll_restores (removes : editor.host.Grants .removeCapability)
    (wanted : List (EntityId × Descriptor × Entries)) {attached : List (EntityId × CapabilityId)}
    {session : Session} (adds : base.AddsCapabilities attached session.scene)
    (same : session.notes = notes) :
    WP (editor.attachAll attached wanted)
      (fun result left => base.AddsCapabilities result left.scene ∧ left.notes = notes)
      (fun _ left => base.Agrees left.scene ∧ left.notes = notes) session := by
  induction wanted generalizing attached session with
  | nil => exact WP.pure_iff.mpr ⟨adds, same⟩
  | cons first rest ih =>
      rw [attachAll]
      rw [WP.bind_iff, WP.orUndo_iff]
      refine (attach_restores removes _ _ adds same).mono ?_ ?_
      · exact fun capability left holds => ih holds.1 holds.2
      · intro report left holds
        exact (detachAll_restores removes [] holds.1 holds.2).mono
          (fun _ _ holds => ⟨holds.1.agrees, holds.2⟩) fun _ _ h => h

theorem addCapability_atomic (wf : scene.WellFormed)
    (removes : editor.host.Grants .removeCapability) (views : editor.host.Grants .viewEntity)
    (params : AddCapability) : Atomic scene notes (editor.addCapability params) := by
  apply Atomic.bind _ (fun _ => editor.targets_keeps _) (targets_finds _ _)
  intro targets found
  apply Atomic.bind_quiet (fun _ => editor.capabilityType_keeps _)
  intro type
  rintro session rfl rfl
  refine WP.bind_iff.mpr ((attachAll_restores removes _ (.refl wf) rfl).mono ?_ fun _ _ h => h)
  rintro attached left ⟨adds, _⟩
  have known : targets ⊆ left.scene.entities.map Entity.id := by
    rw [adds.map_id]
    exact found.2
  refine (?_ : Succeeds (fun scene => targets ⊆ scene.entities.map Entity.id) _
    fun _ => True).never_fails known
  exact (Succeeds.forM fun _ => (Succeeds.note _).bind fun _ => Succeeds.tell _ _ _).bind fun _ =>
    (summaries_succeeds views targets).bind fun _ => Succeeds.pure _

/-! ### Detaching -/

/-- Capabilities of distinct entities that are no transforms are all detached. -/
theorem detachEach_succeeds (removes : editor.host.Grants .removeCapability) {type : Descriptor}
    (targets : List EntityId) (removed : List EntityId) {pairs : List (EntityId × CapabilityId)}
    (distinct : (pairs.map Prod.fst).Nodup) :
    Succeeds (fun scene => targets ⊆ scene.entities.map Entity.id ∧
        scene.isTransform type = false ∧ ∀ pair ∈ pairs, scene.Carries type pair)
      (editor.detachEach type removed pairs)
      fun scene => targets ⊆ scene.entities.map Entity.id := by
  induction pairs generalizing removed with
  | nil => exact (Succeeds.pure _).of_imp fun _ holds => holds.1
  | cons pair rest ih =>
      obtain ⟨new, distinct⟩ := List.nodup_cons.mp distinct
      rintro session ⟨known, removable, carried⟩
      obtain ⟨here, others⟩ := List.forall_mem_cons.mp carried
      have done : (editor.detachRequest pair.1 pair.2 session.scene).result =
          .ok ((), session.scene.modify pair.1 fun entity => entity.minus pair.2) :=
        detachRequest_eq_ok_iff.mpr ⟨removes.refuses _ _, here.detach_eq_ok removable⟩
      rw [detachEach]
      refine WP.bind_iff.mpr (WP.request_iff.mpr ?_)
      rw [done]
      refine WP.bind_iff.mpr (WP.note_iff.mpr (WP.bind_iff.mpr (WP.tell_iff.mpr ?_)))
      refine ih _ distinct _ ⟨?_, removable, fun other member => ?_⟩
      · change targets ⊆ (session.scene.modify pair.1 _).entities.map Entity.id
        rw [Scene.map_modify _ fun entity => entity.minus_id pair.2]
        exact known
      · refine (others other member).of_modify_ne (fun entity => entity.minus_id pair.2) ?_
        exact fun same => new (same ▸ List.mem_map_of_mem member)

/-- A transform is not detached from the first entity, and then from none. -/
theorem detachEach_refused {type : Descriptor} {pairs : List (EntityId × CapabilityId)}
    {session : Session} (permanent : session.scene.isTransform type = true)
    (carried : ∀ pair ∈ pairs, session.scene.Carries type pair) :
    WP (editor.detachEach type [] pairs) (fun _ left => left.scene = session.scene)
      (fun _ left => session.scene.Agrees left.scene ∧ left.notes = session.notes) session := by
  cases pairs with
  | nil => exact WP.pure_iff.mpr rfl
  | cons pair rest =>
      have here := carried pair List.mem_cons_self
      rw [detachEach]
      refine WP.bind_iff.mpr (WP.request_iff.mpr ?_)
      cases answer : (editor.detachRequest pair.1 pair.2 session.scene).result with
      | error refusal => exact WP.throw_iff.mpr ⟨.refl _, rfl⟩
      | ok changed =>
          exact absurd (detachRequest_eq_ok_iff.mp answer).2 (here.detach_ne_ok permanent _)

theorem removeCapability_atomic (wf : scene.WellFormed)
    (removes : editor.host.Grants .removeCapability) (views : editor.host.Grants .viewEntity)
    (params : RemoveCapability) : Atomic scene notes (editor.removeCapability params) := by
  apply Atomic.bind _ (fun _ => editor.targets_keeps _) (targets_finds _ _)
  intro targets found
  apply Atomic.bind_quiet (fun _ => editor.capabilityType_keeps _)
  intro type
  refine Atomic.bind _ (fun _ => editor.capabilitiesOf_keeps _ _)
    (capabilitiesOf_finds wf type targets) fun pairs lookedUp => ?_
  have finishes : Succeeds (fun scene => targets ⊆ scene.entities.map Entity.id)
      (editor.summaries targets >>= fun entities =>
        pure { deed := .removedCapability, entities : EntityReport }) fun _ => True :=
    (summaries_succeeds views targets).bind fun _ => Succeeds.pure _
  cases permanent : scene.isTransform type with
  | false =>
      refine Atomic.of_succeeds ((detachEach_succeeds removes targets [] ?_).bind fun _ =>
        finishes) ⟨found.2, permanent, lookedUp.2⟩
      rw [lookedUp.1]
      exact found.1
  | true =>
      rintro session rfl rfl
      refine WP.bind_iff.mpr ((detachEach_refused permanent lookedUp.2).mono ?_ fun _ _ h => h)
      intro _ left same
      exact finishes.never_fails (by rw [same]; exact found.2)

/-! ### Destroying -/

/-- An entity that is there can be destroyed. -/
theorem destroyEach_succeeds (destroys : editor.host.Grants .destroyEntity) (ids : List EntityId) :
    Succeeds (fun _ => True) (editor.destroyEach ids) fun _ => True := by
  induction ids with
  | nil => exact Succeeds.pure _
  | cons id rest ih =>
      intro session _
      rw [destroyEach]
      refine WP.bind_iff.mpr (WP.scene_iff.mpr ?_)
      split
      · exact ih session trivial
      · rename_i there
        obtain ⟨entity, shown⟩ :=
          Option.ne_none_iff_exists'.mp (mt Option.isNone_iff_eq_none.mpr there)
        obtain ⟨member, rfl⟩ := Host.mem_of_shown shown
        have done : (editor.destroyRequest entity.id session.scene).result = .ok ((), _) :=
          destroyRequest_eq_ok_iff.mpr ⟨destroys.refuses _ _,
            Scene.destroy_eq_ok_iff.mpr ⟨List.mem_map_of_mem member, rfl⟩⟩
        refine WP.bind_iff.mpr (WP.require_iff.mpr ?_)
        rw [done]
        refine WP.bind_iff.mpr (WP.note_iff.mpr (WP.bind_iff.mpr (WP.tell_iff.mpr ?_)))
        exact (ih.bind fun _ => Succeeds.pure _) _ trivial

theorem delete_atomic (destroys : editor.host.Grants .destroyEntity) (query : Query) :
    Atomic scene notes (editor.delete query) :=
  Atomic.bind_quiet (fun _ => editor.targets_keeps _) fun targets =>
    Atomic.of_succeeds (destroyEach_succeeds destroys targets) trivial

/-! ### Writing -/

theorem writeEach_succeeds (edits : editor.host.Grants .editEntity) {type : Descriptor}
    (entries : Entries) {pair : EntityId × CapabilityId}
    {pairs : List (EntityId × CapabilityId)} (member : pair ∈ pairs) :
    Succeeds (fun scene => ∀ pair ∈ pairs, scene.Carries type pair)
      (editor.writeEach pair.1 type pair.2 entries)
      fun scene => ∀ pair ∈ pairs, scene.Carries type pair := by
  intro session carried
  obtain ⟨entity, attached, found, here, _⟩ := carried pair member
  have state : ((editor.host.editableEntity? session.scene pair.1).bind fun record =>
      record.attached? pair.2).map Capability.state = some attached.state := by
    rw [edits.editableEntity?, found, Option.bind_some, here, Option.map_some]
  rw [writeEach, stateOf, WP.bind_iff, WP.bind_iff, WP.scene_iff, WP.ofOption_iff, state]
  have kept : ∀ other ∈ pairs, ∀ state, (session.scene.modify pair.1 fun record =>
      record.setState pair.2 state).Carries type other := fun other inside state =>
    (carried other inside).setState pair.1 pair.2 state
  refine WP.bind_iff.mpr (WP.modifyEntity_iff.mpr (WP.bind_iff.mpr (WP.ofAttempt_iff.mpr ?_)))
  dsimp only
  split
  · rw [WP.bind_iff, WP.note_iff, WP.pure_iff]
    exact fun other inside => kept other inside _
  · exact WP.pure_iff.mpr fun other inside => kept other inside _

theorem writeEachTo_succeeds (edits : editor.host.Grants .editEntity) (type : Descriptor)
    (entries : Entries) {pairs all : List (EntityId × CapabilityId)} (among : pairs ⊆ all) :
    Succeeds (fun scene => ∀ pair ∈ all, scene.Carries type pair)
      (editor.writeEachTo type entries pairs)
      fun scene => ∀ pair ∈ all, scene.Carries type pair := by
  induction pairs with
  | nil => exact Succeeds.pure _
  | cons pair rest ih =>
      obtain ⟨here, others⟩ := List.cons_subset.mp among
      exact (writeEach_succeeds edits entries here).bind fun _ =>
        (ih others).bind fun _ => Succeeds.pure _

theorem setProperties_atomic (wf : scene.WellFormed) (edits : editor.host.Grants .editEntity)
    (params : SetProperties) : Atomic scene notes (editor.setProperties params) := by
  apply Atomic.check
  apply Atomic.bind_quiet (fun _ => editor.targets_keeps _)
  intro targets
  apply Atomic.bind_quiet (fun _ => editor.capabilityType_keeps _)
  intro type
  refine Atomic.bind _ (fun _ => editor.capabilitiesOf_keeps _ _)
    (capabilitiesOf_finds wf type targets) fun pairs lookedUp => ?_
  have writes := writeEachTo_succeeds edits type params.entries (List.Subset.refl pairs)
  exact Atomic.of_succeeds (writes.bind fun _ => Succeeds.pure _) lookedUp.2

/-! ### All operations -/

/-- A failure leaves table, layers and transform as they were, and sends no note. -/
def AllOrNothing {α : Type} (session : Session) (x : Edit α) : Prop :=
  ∀ report after, x.run session = (.error report, after) →
    session.scene.Agrees after.scene ∧ after.notes = session.notes

theorem AllOrNothing.of_atomic {α : Type} {session : Session} {x : Edit α}
    (atomic : Atomic session.scene session.notes x) : AllOrNothing session x :=
  fun _ _ run => (atomic session rfl rfl).error run

theorem AllOrNothing.agrees {α : Type} {session : Session} {x : Edit α}
    (whole : AllOrNothing session x) (failed : (x.run session).1.isOk = false) :
    session.scene.Agrees (x.run session).2.scene := by
  cases outcome : x.run session with
  | mk result after =>
      cases result with
      | error report => exact (whole report after outcome).1
      | ok a => simp [outcome, Except.isOk, Except.toBool] at failed

/-- In every reachable scene: creating, copying and attaching are all or nothing if the host carries
out what undoes them, destroying and detaching, and shows the entities there are, whatever else it
refuses; detaching, destroying and writing are all or nothing if the host refuses nothing. -/
theorem all_or_nothing (editor : Editor) {session : Session} (reached : session.scene.Reachable) :
    (editor.host.Grants .destroyEntity → editor.host.Grants .removeCapability →
      editor.host.Grants .viewEntity →
      (∀ params, AllOrNothing session (editor.create params)) ∧
      (∀ params, AllOrNothing session (editor.duplicate params)) ∧
      ∀ params, AllOrNothing session (editor.addCapability params)) ∧
    (editor.host.refusals = [] →
      (∀ params, AllOrNothing session (editor.removeCapability params)) ∧
      (∀ query, AllOrNothing session (editor.delete query)) ∧
      ∀ params, AllOrNothing session (editor.setProperties params)) := by
  have wf := reached.wellFormed
  constructor
  · intro destroys removes views
    exact ⟨fun params => .of_atomic (create_atomic wf destroys views params),
      fun params => .of_atomic (duplicate_atomic wf destroys views params),
      fun params => .of_atomic (addCapability_atomic wf removes views params)⟩
  · intro plain
    have granted := Host.grants_of_plain plain
    exact ⟨fun params => .of_atomic (removeCapability_atomic wf (granted _) (granted _) params),
      fun query => .of_atomic (delete_atomic (granted _) query),
      fun params => .of_atomic (setProperties_atomic wf (granted _) params)⟩

/-- The type and the initial state of a transform. -/
def lampTransform : Descriptor × Object :=
  (⟨⟨"Transform"⟩, "Game", .capability⟩, .empty ⟨"Transform"⟩)

/-- A host that knows the transform and one more capability. -/
def lampHost (refusals : List Refusal) : Host where
  env := { catalog := {
    modules := [("Game", .preferred)]
    entries := [⟨lampTransform.1, some lampTransform.2⟩,
      ⟨⟨⟨"Health"⟩, "Game", .capability⟩, some (.empty ⟨"Health"⟩)⟩] } }
  refusals

/-- A session on a scene with the transform and one entity. -/
def lampSession : Session where
  scene := ({ transform := some lampTransform } : Scene).after (.create "Lamp" none)

/-- An entity that was created is destroyed again when its capability is refused, which the counter
shows; and the transform of an entity is not detached. -/
theorem all_or_nothing_of_refused :
    let created := (({ host := lampHost [{ request := .addCapability }] } : Editor).create
      ⟨"Bulb", none, none, none, none, ⟨none, none, none⟩, [⟨"Health", []⟩]⟩).run lampSession
    let detached := (({ host := lampHost [] } : Editor).removeCapability
      ⟨{ term := "Lamp" }, "Transform"⟩).run lampSession
    (created.1.isOk = false ∧ created.2.scene.nextEntity = 3 ∧
      lampSession.scene.Agrees created.2.scene) ∧
      detached.1.isOk = false ∧ lampSession.scene.Agrees detached.2.scene := by
  have reached : lampSession.scene.Reachable :=
    .step (.fresh _ (some lampTransform)) (.create "Lamp" none)
  have undoes := (all_or_nothing { host := lampHost [{ request := .addCapability }] } reached).1
    (by simp [Host.Grants, lampHost]) (by simp [Host.Grants, lampHost])
    (by simp [Host.Grants, lampHost])
  have checks := (all_or_nothing { host := lampHost [] } reached).2 rfl
  refine ⟨⟨by decide +kernel, by decide +kernel, ?_⟩, by decide +kernel, ?_⟩
  · exact (undoes.1 _).agrees (by decide +kernel)
  · exact (checks.1 _).agrees (by decide +kernel)

end Editor
end SceneEdit
