import SceneEdit.Proofs.Session.Invariant
import SceneEdit.Proofs.Types.Identity

/-!
# What sessions remember

Operations change the remembered types by resolving names only. So what resolving keeps, in any
catalog, every operation keeps, whatever else it does and however it ends, and it holds of the cache
of every session with a past.
-/

namespace SceneEdit

/-- What resolving a name keeps, in any catalog. -/
structure TypeCache.Stable (I : TypeCache → Prop) : Prop where
  resolve : ∀ {cache changed catalog category text type}, I cache →
    (cache.resolve catalog category text).result = .ok (type, changed) → I changed

theorem TypeCache.coherent_stable : TypeCache.Stable TypeCache.Coherent where
  resolve coherent outcome := (coherent.resolve outcome).1

namespace Edit

variable {α : Type} {I : TypeCache → Prop}

/-- An assertion about the remembered types that holds after an edit, however it ends, if it held
before. -/
abbrev KeepsTypes (I : TypeCache → Prop) (x : Edit α) : Prop :=
  Preserves (fun session => I session.types) x

namespace KeepsTypes

theorem ofAttempt (x : Attempt α) : KeepsTypes I (.ofAttempt x) :=
  Preserves.ofAttempt (fun _ _ h => h) x

theorem tell (level : Level) (source : Source) (text : String) :
    KeepsTypes I (.tell level source text) := ofAttempt _

theorem note (note : Note) : KeepsTypes I (.note note) := fun _ h => WP.note_iff.mpr h

/-- What is computed from the scene alone. -/
theorem ofScene (f : Scene → Except Report α) :
    KeepsTypes I (Edit.scene >>= fun scene => .ofExcept (f scene)) :=
  Preserves.scene.bind fun _ => ofAttempt _

theorem modifyEntity (id : EntityId) (change : Entity → Entity) :
    KeepsTypes I (.modifyEntity id change) := fun _ h => WP.modifyEntity_iff.mpr h

theorem request (change : Scene → Traced SceneError (α × Scene)) :
    KeepsTypes I (.request change) := by
  intro session h
  rw [WP.request_iff]
  cases (change session.scene).result <;> exact h

theorem require (operation : String) (change : Scene → Traced SceneError (α × Scene)) :
    KeepsTypes I (.require operation change) := by
  apply (request change).bind
  intro answer
  cases answer with
  | error refusal => exact Preserves.fail _
  | ok a => exact Preserves.pure a

/-- What is looked up with the types that are remembered, and remembers more of them. -/
theorem lookup {attempt : Session → Attempt (α × TypeCache)}
    (keeps : ∀ session a types, I session.types →
      (attempt session).result = .ok (a, types) → I types) :
    KeepsTypes I (do
      let session ← get
      let (a, types) ← .ofAttempt (attempt session)
      modify fun session => { session with types }
      return a) := by
  intro session holds
  rw [WP.bind_iff, WP.get_iff, WP.bind_iff, WP.ofAttempt_iff]
  cases answer : (attempt session).result with
  | error report => exact holds
  | ok pair =>
      refine WP.bind_iff.mpr (WP.modify_iff.mpr (WP.pure_iff.mpr ?_))
      exact keeps session pair.1 pair.2 holds answer

end KeepsTypes
end Edit

namespace Editor

open Edit

/-! ### Edits that resolve nothing -/

section

variable {I : TypeCache → Prop} (editor : Editor)

theorem stateOf_keepsTypes (entity : EntityId) (capability : CapabilityId) :
    KeepsTypes I (editor.stateOf entity capability) :=
  Preserves.scene.bind fun _ => Preserves.ofOption _ _

theorem writeAll_keepsTypes (entity : EntityId) (type : Descriptor) (capability : CapabilityId)
    (entries : Entries) : KeepsTypes I (editor.writeAll entity type capability entries) :=
  (editor.stateOf_keepsTypes entity capability).bind fun _ =>
    (KeepsTypes.modifyEntity _ _).bind fun _ => KeepsTypes.ofAttempt _

theorem writeEach_keepsTypes (entity : EntityId) (type : Descriptor) (capability : CapabilityId)
    (entries : Entries) : KeepsTypes I (editor.writeEach entity type capability entries) :=
  (editor.stateOf_keepsTypes entity capability).bind fun _ =>
    (KeepsTypes.modifyEntity _ _).bind fun _ => (KeepsTypes.ofAttempt _).bind fun _ =>
      Preserves.ite ((KeepsTypes.note _).bind fun _ => Preserves.pure _) (Preserves.pure _)

theorem capabilityOf_keepsTypes (type : Descriptor) (id : EntityId) :
    KeepsTypes I (editor.capabilityOf type id) := KeepsTypes.ofScene _

theorem capabilitiesOf_keepsTypes (type : Descriptor) (ids : List EntityId) :
    KeepsTypes I (editor.capabilitiesOf type ids) := KeepsTypes.ofScene _

theorem summaries_keepsTypes (ids : List EntityId) : KeepsTypes I (editor.summaries ids) :=
  KeepsTypes.ofScene _

theorem reference_keepsTypes (term : String) : KeepsTypes I (editor.reference term) :=
  KeepsTypes.ofScene _

theorem layer_keepsTypes (text : String) : KeepsTypes I (editor.layer text) :=
  KeepsTypes.ofScene _

theorem nonBlank_keepsTypes (what : String) (text : Option String) :
    KeepsTypes I (editor.nonBlank what text) := by
  rw [nonBlank]
  split
  · exact Preserves.fail _
  · exact Preserves.pure _

theorem newParent_keepsTypes (change : ParentChange) : KeepsTypes I (editor.newParent change) := by
  cases change with
  | keep => exact Preserves.pure _
  | toRoot => exact Preserves.pure _
  | under term => exact (editor.reference_keepsTypes term).bind fun _ => Preserves.pure _

theorem detachAll_keepsTypes (attached : List (EntityId × CapabilityId)) :
    KeepsTypes I (editor.detachAll attached) := by
  induction attached with
  | nil => exact Preserves.pure _
  | cons pair rest ih =>
      apply (KeepsTypes.request _).bind
      intro answer
      cases answer with
      | error refusal => exact (KeepsTypes.tell _ _ _).bind fun _ => ih
      | ok _ => exact ih

theorem attach_keepsTypes (id : EntityId) (type : Descriptor) (properties : Entries) :
    KeepsTypes I (editor.attach id type properties) :=
  (Preserves.ofOption _ _).bind fun _ => (KeepsTypes.require _ _).bind fun _ =>
    Preserves.ite (((editor.writeAll_keepsTypes _ _ _ _).orUndo
      (editor.detachAll_keepsTypes _)).bind fun _ => Preserves.pure _) (Preserves.pure _)

theorem attachAll_keepsTypes (attached : List (EntityId × CapabilityId))
    (wanted : List (EntityId × Descriptor × Entries)) :
    KeepsTypes I (editor.attachAll attached wanted) := by
  induction wanted generalizing attached with
  | nil => exact Preserves.pure _
  | cons first rest ih =>
      exact ((editor.attach_keepsTypes _ _ _).orUndo (editor.detachAll_keepsTypes _)).bind
        fun _ => ih _

theorem detachEach_keepsTypes (type : Descriptor) (removed : List EntityId)
    (attached : List (EntityId × CapabilityId)) :
    KeepsTypes I (editor.detachEach type removed attached) := by
  induction attached generalizing removed with
  | nil => exact Preserves.pure _
  | cons pair rest ih =>
      apply (KeepsTypes.request _).bind
      intro answer
      cases answer with
      | error refusal => exact Preserves.ite (Preserves.throw _) (Preserves.throw _)
      | ok _ => exact (KeepsTypes.note _).bind fun _ => (KeepsTypes.tell _ _ _).bind fun _ => ih _

theorem writeEachTo_keepsTypes (type : Descriptor) (entries : Entries)
    (attached : List (EntityId × CapabilityId)) :
    KeepsTypes I (editor.writeEachTo type entries attached) := by
  induction attached with
  | nil => exact Preserves.pure _
  | cons pair rest ih =>
      exact (editor.writeEach_keepsTypes _ type _ entries).bind fun _ =>
        ih.bind fun _ => Preserves.pure _

theorem readVector_keepsTypes (type : Descriptor) (member : String) (id : EntityId) :
    KeepsTypes I (editor.readVector type member id) :=
  (editor.capabilityOf_keepsTypes type id).bind fun _ =>
    (KeepsTypes.ofAttempt _).bind fun _ => Preserves.ofOption _ _

theorem toVector_keepsTypes (field : String) (token : Token) :
    KeepsTypes I (editor.toVector field token) :=
  (KeepsTypes.ofAttempt _).bind fun _ => Preserves.ofOption _ _

theorem writePosition_keepsTypes (type : Descriptor) (position : Vector3) (id : EntityId) :
    KeepsTypes I (editor.writePosition type position id) :=
  (editor.capabilityOf_keepsTypes type id).bind fun _ =>
    (editor.writeAll_keepsTypes _ _ _ _).bind fun _ => Preserves.pure _

theorem offsetPosition_keepsTypes (type : Descriptor) (step : Token) (id : EntityId) :
    KeepsTypes I (editor.offsetPosition type step id) :=
  (editor.toVector_keepsTypes _ step).bind fun _ =>
    (editor.readVector_keepsTypes type _ id).bind fun _ =>
      (editor.writePosition_keepsTypes type _ id).bind fun _ => Preserves.pure _

theorem destination_keepsTypes (params : MoveRelative) (type : Descriptor) (reference : EntityId) :
    KeepsTypes I (editor.destination params type reference) := by
  apply (editor.readVector_keepsTypes type _ reference).bind
  intro origin
  have rest : ∀ offset : Vector3, KeepsTypes I (if params.worldSpace then
      pure (origin.add ((params.direction.axis.scale params.distance).add offset))
    else do
      let rotation ← editor.readVector type editor.config.transform.rotation reference
      return origin.add (((params.direction.axis.scale params.distance).add offset).rotate
        rotation)) := fun offset =>
    Preserves.ite (Preserves.pure _)
      ((editor.readVector_keepsTypes type _ reference).bind fun _ => Preserves.pure _)
  cases params.offset with
  | none => exact rest _
  | some token => exact (editor.toVector_keepsTypes _ token).bind rest

theorem discard_keepsTypes (id : EntityId) : KeepsTypes I (editor.discard id) := by
  apply (KeepsTypes.request _).bind
  intro answer
  cases answer with
  | error refusal => exact KeepsTypes.tell _ _ _
  | ok _ => exact Preserves.pure _

theorem changeRecord_keepsTypes (id : EntityId) (change : RecordChange) :
    KeepsTypes I (editor.changeRecord id change) :=
  Preserves.scene.bind fun _ => (Preserves.ofOption _ _).bind fun _ =>
    KeepsTypes.modifyEntity _ _

theorem place_keepsTypes (id : EntityId) (placement : Placement) (transform : Option Descriptor) :
    KeepsTypes I (editor.place id placement transform) := by
  cases transform with
  | none => exact Preserves.pure _
  | some type =>
      exact (editor.capabilityOf_keepsTypes type id).bind fun _ =>
        (editor.writeAll_keepsTypes _ _ _ _).bind fun _ => Preserves.pure _

theorem equip_keepsTypes (id : EntityId) (type : Descriptor) (properties : Entries) :
    KeepsTypes I (editor.equip id type properties) := by
  apply Preserves.scene.bind
  intro scene
  dsimp only
  split
  · exact (editor.writeAll_keepsTypes _ _ _ _).bind fun _ => Preserves.pure _
  · exact (editor.attach_keepsTypes _ _ _).bind fun _ => Preserves.pure _

theorem populate_keepsTypes (id : EntityId) (record : RecordChange) (placement : Placement)
    (transform : Option Descriptor) (capabilities : List (Descriptor × Entries)) :
    KeepsTypes I (editor.populate id record placement transform capabilities) :=
  (editor.changeRecord_keepsTypes id record).bind fun _ =>
    (editor.place_keepsTypes id placement transform).bind fun _ =>
      (Preserves.mapM fun _ => editor.equip_keepsTypes id _ _).bind fun _ => Preserves.pure _

theorem destroyEach_keepsTypes (ids : List EntityId) : KeepsTypes I (editor.destroyEach ids) := by
  induction ids with
  | nil => exact Preserves.pure _
  | cons id rest ih =>
      exact Preserves.scene.bind fun _ => Preserves.ite ih
        ((KeepsTypes.require _ _).bind fun _ => (KeepsTypes.note _).bind fun _ =>
          (KeepsTypes.tell _ _ _).bind fun _ => ih.bind fun _ => Preserves.pure _)

theorem placeCopy_keepsTypes (copy : EntityId) (parent : NewParent) (transform : Option Descriptor)
    (params : Duplicate) : KeepsTypes I (editor.placeCopy copy parent transform params) := by
  have move : KeepsTypes I (editor.placeCopy copy none transform params) := by
    cases transform with
    | none => exact Preserves.pure _
    | some type =>
        unfold placeCopy
        dsimp only
        split
        · refine (editor.capabilityOf_keepsTypes type copy).bind fun _ =>
            (editor.writeAll_keepsTypes _ _ _ _).bind fun _ => ?_
          split
          · exact editor.offsetPosition_keepsTypes type _ copy
          · exact Preserves.pure _
        · split
          · exact editor.offsetPosition_keepsTypes type _ copy
          · exact Preserves.pure _
  cases parent with
  | none => exact move
  | some parent => exact (KeepsTypes.require _ _).bind fun _ => move

theorem copyName_keepsTypes (source : EntityId) (given : Option String) :
    KeepsTypes I (editor.copyName source given) := by
  apply (editor.nonBlank_keepsTypes _ given).bind
  intro name
  cases name with
  | some name => exact Preserves.pure _
  | none =>
      exact Preserves.scene.bind fun _ => (KeepsTypes.ofAttempt _).bind fun _ => Preserves.pure _

theorem checkParent_keepsTypes (targets : List EntityId) (parent : NewParent) :
    KeepsTypes I (editor.checkParent targets parent) := by
  unfold checkParent
  split
  · apply Preserves.scene.bind
    intro scene
    split
    · exact Preserves.fail _
    · exact Preserves.pure _
  · exact Preserves.pure _

theorem checkWritable_keepsTypes (targets : List EntityId) (plan : ModifyPlan) :
    KeepsTypes I (editor.checkWritable targets plan) :=
  Preserves.forM fun _ => Preserves.ite
    ((editor.capabilitiesOf_keepsTypes _ targets).bind fun _ => Preserves.pure _)
    (Preserves.pure _)

theorem attachAndMove_keepsTypes (entity : EntityId) (plan : ModifyPlan) :
    KeepsTypes I (editor.attachAndMove entity plan) := by
  apply (editor.attachAll_keepsTypes _ _).bind
  intro attached
  split
  · exact (KeepsTypes.require _ _).orUndo (editor.detachAll_keepsTypes _)
  · exact Preserves.pure _

theorem detachFrom_keepsTypes (id : EntityId) (changed : Bool) (removed : List CapabilityId) :
    KeepsTypes I (editor.detachFrom id changed removed) := by
  induction removed generalizing changed with
  | nil => exact Preserves.pure _
  | cons capability rest ih =>
      apply (KeepsTypes.require _ _).outcome.bind
      intro outcome
      cases outcome with
      | error report => exact Preserves.pure _
      | ok _ => exact ih true

theorem restructure_keepsTypes (id : EntityId) (plan : ModifyPlan) (removed : List CapabilityId) :
    KeepsTypes I (editor.restructure id plan removed) := by
  apply (editor.attachAndMove_keepsTypes id plan).outcome.bind
  intro outcome
  cases outcome with
  | error report => exact Preserves.pure _
  | ok _ =>
      refine (editor.detachFrom_keepsTypes id _ removed).bind fun (changed, outcome) => ?_
      cases outcome with
      | error report => exact Preserves.pure _
      | ok _ =>
          apply (editor.changeRecord_keepsTypes id _).outcome.bind
          intro outcome
          cases outcome with
          | error report => exact Preserves.pure _
          | ok _ => exact Preserves.pure _

theorem writeProperties_keepsTypes (id : EntityId) (writes : Writes) :
    KeepsTypes I (editor.writeProperties id writes) := by
  induction writes with
  | nil => exact Preserves.pure _
  | cons write rest ih =>
      exact (editor.capabilityOf_keepsTypes _ id).bind fun _ =>
        (editor.writeEach_keepsTypes id _ _ _).bind fun _ => ih.bind fun _ => Preserves.pure _

theorem modifyOne_keepsTypes (plan : ModifyPlan) (id : EntityId) (removed : List CapabilityId) :
    KeepsTypes I (editor.modifyOne plan id removed) := by
  refine (editor.restructure_keepsTypes id plan removed).bind fun (changed, outcome) => ?_
  have finish : KeepsTypes I (.ofExcept outcome >>= fun _ =>
      editor.writeProperties id plan.writes) :=
    (KeepsTypes.ofAttempt _).bind fun _ => editor.writeProperties_keepsTypes id _
  exact Preserves.ite ((KeepsTypes.note _).bind fun _ => finish) finish

theorem modifyEach_keepsTypes (plan : ModifyPlan) (done : List EntityId)
    (entities : List (EntityId × List CapabilityId)) :
    KeepsTypes I (editor.modifyEach plan done entities) := by
  induction entities generalizing done with
  | nil => exact Preserves.pure _
  | cons entity rest ih =>
      exact (editor.modifyOne_keepsTypes plan _ _).reporting.bind fun _ =>
        (ih _).bind fun _ => Preserves.pure _

end

/-! ### Edits that resolve names -/

/-- A search resolves at most one name. -/
theorem run_types {host : Host} {scene : Scene} {cache : TypeCache} {I : TypeCache → Prop}
    (stable : TypeCache.Stable I) (holds : I cache) (strategy : Strategy) (term : String)
    (scope : Option EntityId) (pool : List EntityId) :
    (host.run scene cache strategy term scope pool).Gives fun found => I found.2 := by
  cases strategy with
  | byId =>
      unfold Host.run
      dsimp only
      split
      · exact Traced.Gives.pure holds
      · exact Traced.Gives.throw _
  | byName => exact Traced.Gives.pure holds
  | byTag => exact Traced.Gives.pure holds
  | byPath => exact Traced.Gives.pure holds
  | byLayer => exact (Traced.Gives.any _).bind fun _ _ => Traced.Gives.pure holds
  | byComponent =>
      have resolved : (cache.resolve host.env.catalog .capability term).Gives
          fun answer => I answer.2 := fun _ outcome => stable.resolve holds outcome
      exact resolved.bind fun _ kept => Traced.Gives.pure kept
  | byIdOrNameOrPath => exact Traced.Gives.pure holds

theorem find_types {host : Host} {scene : Scene} {cache : TypeCache} {I : TypeCache → Prop}
    (stable : TypeCache.Stable I) (holds : I cache) (query : Query) :
    (host.find scene cache query).Gives fun found => I found.2 := by
  rw [Host.find]
  dsimp only
  split
  · exact Traced.Gives.throw _
  · exact (Traced.Gives.any _).bind fun _ _ => (run_types stable holds _ _ _ _).bind fun _ kept =>
      (Traced.Gives.any _).bind fun _ _ => Traced.Gives.pure kept

section

variable {I : TypeCache → Prop} (stable : TypeCache.Stable I) (editor : Editor)
include stable

theorem search_keepsTypes (query : Query) : KeepsTypes I (editor.search query) :=
  KeepsTypes.lookup fun _ _ _ holds found => find_types stable holds query _ found

theorem targets_keepsTypes (query : Query) : KeepsTypes I (editor.targets query) :=
  (editor.search_keepsTypes stable query).bind fun _ =>
    Preserves.ite (Preserves.fail _) (Preserves.pure _)

theorem firstTarget_keepsTypes (query : Query) : KeepsTypes I (editor.firstTarget query) :=
  (editor.search_keepsTypes stable query).bind fun _ => Preserves.ofOption _ _

theorem capabilityType_keepsTypes (name : String) : KeepsTypes I (editor.capabilityType name) :=
  KeepsTypes.lookup fun _ _ _ holds outcome => stable.resolve holds outcome

theorem transformType_keepsTypes : KeepsTypes I editor.transformType :=
  editor.capabilityType_keepsTypes stable _

theorem specTypes_keepsTypes (specs : List CapabilitySpec) :
    KeepsTypes I (editor.specTypes specs) :=
  Preserves.mapM fun _ => (editor.capabilityType_keepsTypes stable _).bind fun _ =>
    Preserves.pure _

theorem placementType_keepsTypes (placement : Placement) :
    KeepsTypes I (editor.placementType placement) :=
  Preserves.ite (Preserves.pure _)
    ((editor.transformType_keepsTypes stable).bind fun _ => Preserves.pure _)

theorem plannedWrites_keepsTypes (writes : Writes) (properties : Entries) :
    KeepsTypes I (editor.plannedWrites writes properties) := by
  induction properties generalizing writes with
  | nil => exact Preserves.pure _
  | cons entry rest ih =>
      obtain ⟨name, token⟩ := entry
      cases token with
      | obj entries => exact (editor.capabilityType_keepsTypes stable name).bind fun _ => ih _
      | _ => exact Preserves.fail _

/-! ### Operations -/

theorem setProperties_keepsTypes (params : SetProperties) :
    KeepsTypes I (editor.setProperties params) := by
  apply Preserves.check
  exact (editor.targets_keepsTypes stable _).bind fun _ =>
    (editor.capabilityType_keepsTypes stable _).bind fun _ =>
      (editor.capabilitiesOf_keepsTypes _ _).bind fun _ =>
        (editor.writeEachTo_keepsTypes _ _ _).bind fun _ => Preserves.pure _

theorem addCapability_keepsTypes (params : AddCapability) :
    KeepsTypes I (editor.addCapability params) :=
  (editor.targets_keepsTypes stable _).bind fun _ =>
    (editor.capabilityType_keepsTypes stable _).bind fun _ =>
      (editor.attachAll_keepsTypes _ _).bind fun _ =>
        (Preserves.forM fun _ => (KeepsTypes.note _).bind fun _ =>
          KeepsTypes.tell _ _ _).bind fun _ =>
            (editor.summaries_keepsTypes _).bind fun _ => Preserves.pure _

theorem removeCapability_keepsTypes (params : RemoveCapability) :
    KeepsTypes I (editor.removeCapability params) :=
  (editor.targets_keepsTypes stable _).bind fun _ =>
    (editor.capabilityType_keepsTypes stable _).bind fun _ =>
      (editor.capabilitiesOf_keepsTypes _ _).bind fun _ =>
        (editor.detachEach_keepsTypes _ _ _).bind fun _ =>
          (editor.summaries_keepsTypes _).bind fun _ => Preserves.pure _

theorem plot_keepsTypes (params : MoveRelative) : KeepsTypes I (editor.plot params) := by
  apply Preserves.check
  apply (editor.targets_keepsTypes stable _).bind
  intro targets
  apply (editor.reference_keepsTypes _).bind
  intro reference
  apply Preserves.check
  apply (editor.transformType_keepsTypes stable).bind
  intro type
  apply (editor.destination_keepsTypes params type reference).bind
  intro destination
  exact (editor.capabilitiesOf_keepsTypes type targets).bind fun _ => Preserves.pure _

theorem moveRelative_keepsTypes (params : MoveRelative) :
    KeepsTypes I (editor.moveRelative params) := by
  apply (editor.plot_keepsTypes stable params).bind
  intro course
  refine (Preserves.forM fun id => ?_).bind fun _ =>
    (editor.summaries_keepsTypes course.targets).bind fun _ => Preserves.pure _
  exact (editor.writePosition_keepsTypes course.type _ id).bind fun _ =>
    (KeepsTypes.note _).bind fun _ => KeepsTypes.tell _ _ _

theorem draft_keepsTypes (params : Create) : KeepsTypes I (editor.draft params) := by
  apply Preserves.check
  apply (Preserves.mapMOption fun _ => editor.reference_keepsTypes _).bind
  intro parent
  apply (Preserves.mapMOption fun _ => editor.layer_keepsTypes _).bind
  intro layer
  apply (editor.specTypes_keepsTypes stable _).bind
  intro wants
  exact (editor.placementType_keepsTypes stable _).bind fun _ => Preserves.pure _

theorem create_keepsTypes (params : Create) : KeepsTypes I (editor.create params) := by
  apply (editor.draft_keepsTypes stable params).bind
  intro draft
  apply (KeepsTypes.require _ _).bind
  intro id
  refine ((editor.populate_keepsTypes id _ _ _ _).orUndo
    (editor.discard_keepsTypes id)).bind fun _ => ?_
  exact (KeepsTypes.note _).bind fun _ => (KeepsTypes.tell _ _ _).bind fun _ =>
    (editor.summaries_keepsTypes _).bind fun _ => Preserves.pure _

theorem duplicate_keepsTypes (params : Duplicate) : KeepsTypes I (editor.duplicate params) := by
  apply (editor.firstTarget_keepsTypes stable _).bind
  intro source
  apply (editor.newParent_keepsTypes _).bind
  intro parent
  refine Preserves.ite ((editor.transformType_keepsTypes stable).map.bind fun transform => ?_)
    ((Preserves.pure none).bind fun transform => ?_) <;>
  · apply (editor.copyName_keepsTypes source _).bind
    intro name
    apply (KeepsTypes.require _ _).bind
    intro copy
    refine ((editor.placeCopy_keepsTypes copy parent transform params).orUndo
      (editor.discard_keepsTypes copy)).bind fun _ => ?_
    exact (KeepsTypes.note _).bind fun _ => (KeepsTypes.tell _ _ _).bind fun _ =>
      (editor.summaries_keepsTypes _).bind fun _ => Preserves.pure _

theorem gather_keepsTypes (params : Modify) : KeepsTypes I (editor.gather params) := by
  apply (editor.targets_keepsTypes stable _).bind
  intro targets
  apply (Preserves.mapMOption fun _ => editor.layer_keepsTypes _).bind
  intro layer
  apply (editor.newParent_keepsTypes _).bind
  intro parent
  apply (Preserves.mapM fun _ => editor.capabilityType_keepsTypes stable _).bind
  intro removed
  apply (editor.specTypes_keepsTypes stable _).bind
  intro added
  apply (editor.placementType_keepsTypes stable _).bind
  intro placed
  exact (editor.plannedWrites_keepsTypes stable _ _).bind fun _ => Preserves.pure _

theorem prepare_keepsTypes (params : Modify) : KeepsTypes I (editor.prepare params) := by
  apply (editor.gather_keepsTypes stable params).bind
  intro gathered
  apply (editor.checkParent_keepsTypes gathered.targets gathered.parent).bind
  intro _
  apply (editor.nonBlank_keepsTypes _ _).bind
  intro name
  apply (Preserves.mapM fun type => editor.capabilitiesOf_keepsTypes type gathered.targets).bind
  intro byType
  exact (editor.checkWritable_keepsTypes gathered.targets _).bind fun _ => Preserves.pure _

theorem modify_keepsTypes (params : Modify) : KeepsTypes I (editor.modify params) := by
  apply (editor.prepare_keepsTypes stable params).bind
  intro prepared
  exact (editor.modifyEach_keepsTypes _ _ _).bind fun _ =>
    (editor.summaries_keepsTypes prepared.targets).bind fun _ => Preserves.pure _

theorem readCapabilities_keepsTypes (params : ReadCapabilities) :
    KeepsTypes I (editor.readCapabilities params) := by
  have size : KeepsTypes I (editor.pageSize params.pageSize) := by
    unfold pageSize
    split
    · exact Preserves.pure _
    · exact Preserves.fail _
    · exact Preserves.pure _
  exact size.bind fun _ => (editor.firstTarget_keepsTypes stable _).bind fun _ =>
    Preserves.scene.bind fun _ => (KeepsTypes.ofAttempt _).bind fun _ =>
      Preserves.check (Preserves.pure _)

theorem readCapability_keepsTypes (params : ReadCapability) :
    KeepsTypes I (editor.readCapability params) := by
  apply (editor.firstTarget_keepsTypes stable _).bind
  intro id
  apply (editor.capabilityType_keepsTypes stable _).bind
  intro type
  apply (editor.capabilityOf_keepsTypes type id).bind
  intro capability
  split
  · exact (KeepsTypes.ofAttempt _).bind fun _ => Preserves.pure _
  · exact Preserves.pure _

omit stable in
theorem carryOut_preserves {I : Session → Prop} {α : Type} (action : Action) (decode : Decoder α)
    (params : Token) {run : α → Edit Reply} (each : ∀ a, Preserves I (run a)) :
    Preserves I (carryOut action decode params run) := by
  rw [carryOut]
  split
  · exact each _
  · exact Preserves.fail _

theorem perform_keepsTypes (action : Action) (params : Token) :
    KeepsTypes I (editor.perform action params) := by
  cases action <;> refine carryOut_preserves _ _ _ fun params => Preserves.map ?_
  case find =>
    exact (editor.search_keepsTypes stable params).bind fun _ => editor.summaries_keepsTypes _
  case readCapabilities => exact editor.readCapabilities_keepsTypes stable params
  case readCapability => exact editor.readCapability_keepsTypes stable params
  case create => exact editor.create_keepsTypes stable params
  case modify => exact editor.modify_keepsTypes stable params
  case delete =>
    exact (editor.targets_keepsTypes stable params).bind fun _ => editor.destroyEach_keepsTypes _
  case duplicate => exact editor.duplicate_keepsTypes stable params
  case addCapability => exact editor.addCapability_keepsTypes stable params
  case removeCapability => exact editor.removeCapability_keepsTypes stable params
  case setCapabilityProperties => exact editor.setProperties_keepsTypes stable params
  case moveRelative => exact editor.moveRelative_keepsTypes stable params

end

/-- What holds after an operation, however it ends, holds after the response to its request. -/
theorem execute_of_perform {editor : Editor} {session : Session} {I : Session → Prop}
    (logs : ∀ session events, I session → I (session.log events)) (holds : I session)
    (each : ∀ action params events, WP (editor.perform action params) (fun _ => I) (fun _ => I)
      (session.log events)) (action : String) (params : Token) :
    I (editor.execute session action params).2 := by
  rw [execute]
  split
  · rename_i parsed _
    have performed := each parsed params [⟨.debug, .requests, s!"Executing {parsed.name}"⟩]
    rw [WP] at performed
    rw [respond]
    dsimp only
    split
    · rename_i run
      rwa [run] at performed
    · rename_i run
      rw [run] at performed
      exact logs _ _ performed
  · exact holds

theorem execute_keepsTypes {I : TypeCache → Prop} (stable : TypeCache.Stable I) (editor : Editor)
    (session : Session) (action : String) (params : Token) (holds : I session.types) :
    I (editor.execute session action params).2.types := by
  refine execute_of_perform (I := fun session => I session.types) (fun _ _ h => h) holds
    (fun action params events => ?_) action params
  exact editor.perform_keepsTypes stable action params (session.log events) holds

end Editor

/-- The types that a session remembers after some operations, each with a catalog, a host and a
scene of its own. -/
inductive TypeCache.Reachable : TypeCache → Prop
  | fresh : Reachable {}
  | execute {session : Session} (reached : Reachable session.types) (editor : Editor)
      (action : String) (params : Token) :
      Reachable (editor.execute session action params).2.types

theorem TypeCache.Reachable.coherent {cache : TypeCache} (reached : cache.Reachable) :
    cache.Coherent := by
  induction reached with
  | fresh => exact coherent_empty
  | execute _ editor action params ih =>
      exact editor.execute_keepsTypes coherent_stable _ action params ih

end SceneEdit
