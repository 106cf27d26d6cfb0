import SceneEdit.Proofs.Scene.WellFormed
import SceneEdit.Proofs.Session.Logic
import SceneEdit.Proofs.Session.Request
import SceneEdit.Session.Execute

/-!
# Invariants of sessions

What every structural change of a scene keeps, and every change of records that leaves identities
and parents alone, every operation keeps, whether it succeeds or fails and whatever the host
refuses. So an invariant is proved once for the six changes and never again for the operations,
their loops and their ways to undo.

Looking things up comes first: it keeps every assertion about scene and notes. Then comes what is
done to one entity, which sends no notes and keeps whatever changes of that entity keep.
-/

namespace SceneEdit.Editor

open Edit

variable {P : Scene → List Note → Prop} (editor : Editor)

/-! ### Looking things up -/

theorem search_keeps (query : Query) : Keeps P (editor.search query) :=
  Keeps.get.bind fun _ => (Keeps.ofAttempt _).bind fun _ =>
    (Keeps.setTypes _).bind fun _ => Keeps.pure _

theorem targets_keeps (query : Query) : Keeps P (editor.targets query) :=
  (editor.search_keeps query).bind fun _ => Keeps.ite (Keeps.fail _) (Keeps.pure _)

theorem firstTarget_keeps (query : Query) : Keeps P (editor.firstTarget query) :=
  (editor.search_keeps query).bind fun _ => Keeps.ofOption _ _

theorem reference_keeps (term : String) : Keeps P (editor.reference term) :=
  Keeps.scene.bind fun _ => Keeps.ofExcept _

theorem capabilityType_keeps (name : String) : Keeps P (editor.capabilityType name) :=
  Keeps.get.bind fun _ => (Keeps.ofAttempt _).bind fun _ =>
    (Keeps.setTypes _).bind fun _ => Keeps.pure _

theorem transformType_keeps : Keeps P editor.transformType := editor.capabilityType_keeps _

theorem layer_keeps (text : String) : Keeps P (editor.layer text) :=
  Keeps.scene.bind fun _ => Keeps.ofExcept _

theorem capabilityOf_keeps (type : Descriptor) (id : EntityId) :
    Keeps P (editor.capabilityOf type id) :=
  Keeps.scene.bind fun _ => Keeps.ofExcept _

theorem capabilitiesOf_keeps (type : Descriptor) (ids : List EntityId) :
    Keeps P (editor.capabilitiesOf type ids) :=
  Keeps.scene.bind fun _ => Keeps.ofExcept _

theorem summaries_keeps (ids : List EntityId) : Keeps P (editor.summaries ids) :=
  Keeps.scene.bind fun _ => Keeps.ofExcept _

theorem nonBlank_keeps (what : String) (text : Option String) :
    Keeps P (editor.nonBlank what text) := by
  rw [nonBlank]
  split
  · exact Keeps.fail _
  · exact Keeps.pure _

theorem specTypes_keeps (specs : List CapabilitySpec) : Keeps P (editor.specTypes specs) :=
  Keeps.mapM fun _ => (editor.capabilityType_keeps _).bind fun _ => Keeps.pure _

theorem placementType_keeps (placement : Placement) : Keeps P (editor.placementType placement) :=
  Keeps.ite (Keeps.pure _) (editor.transformType_keeps.bind fun _ => Keeps.pure _)

theorem newParent_keeps (change : ParentChange) : Keeps P (editor.newParent change) := by
  cases change with
  | keep => exact Keeps.pure _
  | toRoot => exact Keeps.pure _
  | under term => exact (editor.reference_keeps term).bind fun _ => Keeps.pure _

theorem copyName_keeps (source : EntityId) (given : Option String) :
    Keeps P (editor.copyName source given) := by
  apply (editor.nonBlank_keeps _ given).bind
  intro name
  cases name with
  | some name => exact Keeps.pure _
  | none => exact Keeps.scene.bind fun _ => (Keeps.ofExcept _).bind fun _ => Keeps.pure _

theorem stateOf_keeps (entity : EntityId) (capability : CapabilityId) :
    Keeps P (editor.stateOf entity capability) :=
  Keeps.scene.bind fun _ => Keeps.ofOption _ _

theorem readVector_keeps (type : Descriptor) (member : String) (id : EntityId) :
    Keeps P (editor.readVector type member id) :=
  (editor.capabilityOf_keeps type id).bind fun _ => (Keeps.ofAttempt _).bind fun _ =>
    Keeps.ofOption _ _

theorem toVector_keeps (field : String) (token : Token) : Keeps P (editor.toVector field token) :=
  (Keeps.ofAttempt _).bind fun _ => Keeps.ofOption _ _

theorem destination_keeps (params : MoveRelative) (type : Descriptor) (reference : EntityId) :
    Keeps P (editor.destination params type reference) := by
  apply (editor.readVector_keeps type _ reference).bind
  intro origin
  have rest : ∀ offset : Vector3, Keeps P (if params.worldSpace then
      pure (origin.add ((params.direction.axis.scale params.distance).add offset))
    else do
      let rotation ← editor.readVector type editor.config.transform.rotation reference
      return origin.add (((params.direction.axis.scale params.distance).add offset).rotate
        rotation)) := fun offset =>
    Keeps.ite (Keeps.pure _) ((editor.readVector_keeps type _ reference).bind fun _ => Keeps.pure _)
  cases params.offset with
  | none => exact rest _
  | some token => exact (editor.toVector_keeps _ token).bind rest

theorem plannedWrites_keeps (writes : Writes) (properties : Entries) :
    Keeps P (editor.plannedWrites writes properties) := by
  induction properties generalizing writes with
  | nil => exact Keeps.pure _
  | cons entry rest ih =>
      obtain ⟨name, token⟩ := entry
      cases token with
      | obj entries => exact (editor.capabilityType_keeps name).bind fun _ => ih _
      | _ => exact Keeps.fail _

theorem checkParent_keeps (targets : List EntityId) (parent : NewParent) :
    Keeps P (editor.checkParent targets parent) := by
  unfold checkParent
  split
  · apply Keeps.scene.bind
    intro scene
    split
    · exact Keeps.fail _
    · exact Keeps.pure _
  · exact Keeps.pure _

theorem checkWritable_keeps (targets : List EntityId) (plan : ModifyPlan) :
    Keeps P (editor.checkWritable targets plan) :=
  Keeps.forM fun _ =>
    Keeps.ite ((editor.capabilitiesOf_keeps _ targets).bind fun _ => Keeps.pure _) (Keeps.pure _)

theorem plot_keeps (params : MoveRelative) : Keeps P (editor.plot params) := by
  apply Keeps.check
  apply (editor.targets_keeps _).bind
  intro targets
  apply (editor.reference_keeps _).bind
  intro reference
  apply Keeps.check
  apply editor.transformType_keeps.bind
  intro type
  apply (editor.destination_keeps params type reference).bind
  intro destination
  exact (editor.capabilitiesOf_keeps type targets).bind fun _ => Keeps.pure _

theorem draft_keeps (params : Create) : Keeps P (editor.draft params) := by
  apply Keeps.check
  apply (Keeps.mapMOption fun _ => editor.reference_keeps _).bind
  intro parent
  apply (Keeps.mapMOption fun _ => editor.layer_keeps _).bind
  intro layer
  apply (editor.specTypes_keeps _).bind
  intro wants
  exact (editor.placementType_keeps _).bind fun _ => Keeps.pure _

theorem gather_keeps (params : Modify) : Keeps P (editor.gather params) := by
  apply (editor.targets_keeps _).bind
  intro targets
  apply (Keeps.mapMOption fun _ => editor.layer_keeps _).bind
  intro layer
  apply (editor.newParent_keeps _).bind
  intro parent
  apply (Keeps.mapM fun _ => editor.capabilityType_keeps _).bind
  intro removed
  apply (editor.specTypes_keeps _).bind
  intro added
  apply (editor.placementType_keeps _).bind
  intro placed
  exact (editor.plannedWrites_keeps _ _).bind fun _ => Keeps.pure _

theorem arrange_keeps (params : Modify) (gathered : Gathered) :
    Keeps P (editor.arrange params gathered) := by
  apply (editor.nonBlank_keeps _ _).bind
  intro name
  apply (Keeps.mapM fun type => editor.capabilitiesOf_keeps type gathered.targets).bind
  intro byType
  exact (editor.checkWritable_keeps gathered.targets _).bind fun _ => Keeps.pure _

theorem prepare_keeps (params : Modify) : Keeps P (editor.prepare params) := by
  apply (editor.gather_keeps params).bind
  intro gathered
  exact (editor.checkParent_keeps _ _).bind fun _ => editor.arrange_keeps params gathered

end SceneEdit.Editor

namespace SceneEdit

/-- Changing name, tag, layer and activity. -/
def Scene.RecordEdit.ofRecordChange (change : RecordChange) : Scene.RecordEdit where
  apply := change.apply
  keeps_id _ := rfl
  keeps_parent _ := rfl
  keeps_capabilities _ := rfl

/-- What all changes of a scene keep. -/
structure Scene.Stable (P : Scene → Prop) : Prop where
  create : ∀ {scene name parent id changed}, P scene →
    scene.create name parent = .ok (id, changed) → P changed
  destroy : ∀ {scene id changed}, P scene → scene.destroy id = .ok changed → P changed
  duplicate : ∀ {scene id name copy changed}, P scene →
    scene.duplicate id name = .ok (copy, changed) → P changed
  setParent : ∀ {scene id parent changed}, P scene →
    scene.setParent id parent = .ok changed → P changed
  attach : ∀ {scene id type state capability changed}, P scene →
    scene.attach id type state = .ok (capability, changed) → P changed
  detach : ∀ {scene id capability changed}, P scene →
    scene.detach id capability = .ok changed → P changed
  edit : ∀ {scene} id (edit : Scene.RecordEdit), P scene → P (scene.modify id edit.apply)

theorem Scene.wellFormed_stable : Scene.Stable Scene.WellFormed where
  create wf done := wf.create done
  destroy wf done := wf.destroy done
  duplicate wf done := wf.duplicate done
  setParent wf done := wf.setParent done
  attach wf done := wf.attach done
  detach wf done := wf.detach done
  edit id edit wf := wf.edit id edit

/-- What changes of one entity keep, as long as no note is sent. -/
structure Scene.StableAt (id : EntityId) (P : Scene → List Note → Prop) : Prop where
  setParent : ∀ {scene notes parent changed}, P scene notes →
    scene.setParent id parent = .ok changed → P changed notes
  attach : ∀ {scene notes type state capability changed}, P scene notes →
    scene.attach id type state = .ok (capability, changed) → P changed notes
  detach : ∀ {scene notes capability changed}, P scene notes →
    scene.detach id capability = .ok changed → P changed notes
  edit : ∀ {scene notes} (edit : Scene.RecordEdit), P scene notes →
    P (scene.modify id edit.apply) notes

theorem Scene.Stable.at {P : Scene → Prop} (stable : Scene.Stable P) (id : EntityId) :
    Scene.StableAt id fun scene _ => P scene where
  setParent holds done := stable.setParent holds done
  attach holds done := stable.attach holds done
  detach holds done := stable.detach holds done
  edit edit holds := stable.edit id edit holds

namespace Editor

open Edit

/-! ### One entity -/

/-- Writing into a capability keeps what other states of the capability keep. -/
theorem writeAll_keeps_of_setState {P : Scene → List Note → Prop} {id : EntityId}
    {capability : CapabilityId}
    (keeps : ∀ scene notes state, P scene notes →
      P (scene.modify id fun entity => entity.setState capability state) notes)
    (editor : Editor) (type : Descriptor) (entries : Entries) :
    Keeps P (editor.writeAll id type capability entries) := by
  apply (editor.stateOf_keeps id capability).bind
  intro state
  exact (Keeps.modifyEntity fun scene notes => keeps scene notes _).bind fun _ =>
    Keeps.ofAttempt _

section

variable {P : Scene → List Note → Prop} {id : EntityId} (stable : Scene.StableAt id P)
variable (editor : Editor)
include stable

theorem parentRequest_keeps (operation : String) (parent : Option EntityId) :
    Keeps P (.require operation (editor.parentRequest id parent)) :=
  Keeps.require fun _ _ _ _ h made => stable.setParent h (parentRequest_eq_ok_iff.mp made).2

theorem detachRequest_keeps (capability : CapabilityId) :
    Keeps P (.request (editor.detachRequest id capability)) :=
  Keeps.request fun _ _ _ _ h made => stable.detach h (detachRequest_eq_ok_iff.mp made).2

theorem writeAll_keeps (type : Descriptor) (capability : CapabilityId) (entries : Entries) :
    Keeps P (editor.writeAll id type capability entries) :=
  writeAll_keeps_of_setState (fun _ _ state h => stable.edit (.setState capability state) h) editor
    type entries

omit stable in
theorem detachAll_keeps (attached : List (EntityId × CapabilityId))
    (stable : ∀ pair ∈ attached, Scene.StableAt pair.1 P) :
    Keeps P (editor.detachAll attached) := by
  induction attached with
  | nil => exact Keeps.pure _
  | cons pair rest ih =>
      obtain ⟨here, others⟩ := List.forall_mem_cons.mp stable
      apply (editor.detachRequest_keeps here pair.2).bind
      intro answer
      cases answer with
      | error refusal => exact (Keeps.tell _ _ _).bind fun _ => ih others
      | ok _ => exact ih others

theorem attach_keeps (type : Descriptor) (properties : Entries) :
    Keeps P (editor.attach id type properties) := by
  apply (Keeps.ofOption _ _).bind
  intro state
  refine Keeps.bind (Keeps.require fun _ _ _ _ h made => ?_) fun capability => ?_
  · exact stable.attach h (attachRequest_eq_ok_iff.mp made).2
  · refine Keeps.ite (Keeps.bind ?_ fun _ => Keeps.pure _) (Keeps.pure _)
    exact (editor.writeAll_keeps stable type capability properties).orUndo
      (editor.detachAll_keeps _ (List.forall_mem_singleton.mpr stable))

theorem writePosition_keeps (type : Descriptor) (position : Vector3) :
    Keeps P (editor.writePosition type position id) :=
  (editor.capabilityOf_keeps type id).bind fun _ =>
    (editor.writeAll_keeps stable type _ _).bind fun _ => Keeps.pure _

theorem offsetPosition_keeps (type : Descriptor) (step : Token) :
    Keeps P (editor.offsetPosition type step id) :=
  (editor.toVector_keeps _ step).bind fun _ => (editor.readVector_keeps type _ id).bind fun _ =>
    (editor.writePosition_keeps stable type _).bind fun _ => Keeps.pure _

theorem changeRecord_keeps (change : RecordChange) : Keeps P (editor.changeRecord id change) :=
  Keeps.scene.bind fun _ => (Keeps.ofOption _ _).bind fun _ =>
    Keeps.modifyEntity fun _ _ h => stable.edit (.ofRecordChange change) h

theorem place_keeps (placement : Placement) (transform : Option Descriptor) :
    Keeps P (editor.place id placement transform) := by
  cases transform with
  | none => exact Keeps.pure _
  | some type =>
      exact (editor.capabilityOf_keeps type id).bind fun _ =>
        (editor.writeAll_keeps stable type _ _).bind fun _ => Keeps.pure _

theorem equip_keeps (type : Descriptor) (properties : Entries) :
    Keeps P (editor.equip id type properties) := by
  apply Keeps.scene.bind
  intro scene
  dsimp only
  split
  · exact (editor.writeAll_keeps stable type _ properties).bind fun _ => Keeps.pure _
  · exact (editor.attach_keeps stable type properties).bind fun _ => Keeps.pure _

theorem populate_keeps (record : RecordChange) (placement : Placement)
    (transform : Option Descriptor) (capabilities : Writes) :
    Keeps P (editor.populate id record placement transform capabilities) :=
  (editor.changeRecord_keeps stable record).bind fun _ =>
    (editor.place_keeps stable placement transform).bind fun _ =>
      (Keeps.mapM fun _ => editor.equip_keeps stable _ _).bind fun _ => Keeps.pure _

theorem placeCopy_keeps (parent : NewParent) (transform : Option Descriptor)
    (params : Duplicate) : Keeps P (editor.placeCopy id parent transform params) := by
  have move : Keeps P (editor.placeCopy id none transform params) := by
    cases transform with
    | none => exact Keeps.pure _
    | some type =>
        unfold placeCopy
        dsimp only
        split
        · refine (editor.capabilityOf_keeps type id).bind fun _ =>
            (editor.writeAll_keeps stable type _ _).bind fun _ => ?_
          split
          · exact editor.offsetPosition_keeps stable type _
          · exact Keeps.pure _
        · split
          · exact editor.offsetPosition_keeps stable type _
          · exact Keeps.pure _
  cases parent with
  | none => exact move
  | some parent => exact (editor.parentRequest_keeps stable _ parent).bind fun _ => move

end

section

variable {P : Scene → Prop} (stable : Scene.Stable P) (editor : Editor)
include stable

/-! ### Requests -/

theorem createRequest_keeps (operation name : String) (parent : Option EntityId) :
    Keeps (fun scene _ => P scene) (.require operation (editor.createRequest name parent)) :=
  Keeps.require fun _ _ _ _ h made => stable.create h (createRequest_eq_ok_iff.mp made).2

theorem destroyRequest_keeps (id : EntityId) :
    Keeps (fun scene _ => P scene) (.request (editor.destroyRequest id)) :=
  Keeps.request fun _ _ _ _ h made => stable.destroy h (destroyRequest_eq_ok_iff.mp made).2

theorem duplicateRequest_keeps (operation : String) (id : EntityId) (name : String) :
    Keeps (fun scene _ => P scene) (.require operation (editor.duplicateRequest id name)) :=
  Keeps.require fun _ _ _ _ h made => stable.duplicate h (duplicateRequest_eq_ok_iff.mp made).2

omit stable in
theorem note_keeps (note : Note) : Keeps (fun scene _ => P scene) (.note note) :=
  Keeps.note fun _ _ h => h

/-! ### Writing -/

theorem writeEach_keeps (entity : EntityId) (type : Descriptor) (capability : CapabilityId)
    (entries : Entries) :
    Keeps (fun scene _ => P scene) (editor.writeEach entity type capability entries) := by
  apply (editor.stateOf_keeps entity capability).bind
  intro state
  refine (Keeps.modifyEntity fun _ _ h => ?_).bind fun _ => (Keeps.ofAttempt _).bind fun _ => ?_
  · exact stable.edit entity (.setState capability _) h
  · exact Keeps.ite ((note_keeps _).bind fun _ => Keeps.pure _) (Keeps.pure _)

theorem writeEachTo_keeps (type : Descriptor) (entries : Entries)
    (attached : List (EntityId × CapabilityId)) :
    Keeps (fun scene _ => P scene) (editor.writeEachTo type entries attached) := by
  induction attached with
  | nil => exact Keeps.pure _
  | cons pair rest ih =>
      exact (editor.writeEach_keeps stable _ type _ entries).bind fun _ =>
        ih.bind fun _ => Keeps.pure _

theorem setProperties_keeps (params : SetProperties) :
    Keeps (fun scene _ => P scene) (editor.setProperties params) := by
  apply Keeps.check
  exact (editor.targets_keeps _).bind fun _ => (editor.capabilityType_keeps _).bind fun _ =>
    (editor.capabilitiesOf_keeps _ _).bind fun _ =>
      (editor.writeEachTo_keeps stable _ _ _).bind fun _ => Keeps.pure _

/-! ### Attaching and detaching -/

theorem attachAll_keeps (attached : List (EntityId × CapabilityId))
    (wanted : List (EntityId × Descriptor × Entries)) :
    Keeps (fun scene _ => P scene) (editor.attachAll attached wanted) := by
  induction wanted generalizing attached with
  | nil => exact Keeps.pure _
  | cons first rest ih =>
      exact ((editor.attach_keeps (stable.at _) _ _).orUndo
        (editor.detachAll_keeps _ fun pair _ => stable.at pair.1)).bind fun _ => ih _

theorem addCapability_keeps (params : AddCapability) :
    Keeps (fun scene _ => P scene) (editor.addCapability params) :=
  (editor.targets_keeps _).bind fun _ => (editor.capabilityType_keeps _).bind fun _ =>
    (editor.attachAll_keeps stable _ _).bind fun _ =>
      (Keeps.forM fun _ => (note_keeps _).bind fun _ => Keeps.tell _ _ _).bind fun _ =>
        (editor.summaries_keeps _).bind fun _ => Keeps.pure _

theorem detachEach_keeps (type : Descriptor) (removed : List EntityId)
    (attached : List (EntityId × CapabilityId)) :
    Keeps (fun scene _ => P scene) (editor.detachEach type removed attached) := by
  induction attached generalizing removed with
  | nil => exact Keeps.pure _
  | cons pair rest ih =>
      apply (editor.detachRequest_keeps (stable.at pair.1) pair.2).bind
      intro answer
      cases answer with
      | error refusal => exact Keeps.ite (Keeps.throw _) (Keeps.throw _)
      | ok _ => exact (note_keeps _).bind fun _ => (Keeps.tell _ _ _).bind fun _ => ih _

theorem removeCapability_keeps (params : RemoveCapability) :
    Keeps (fun scene _ => P scene) (editor.removeCapability params) :=
  (editor.targets_keeps _).bind fun _ => (editor.capabilityType_keeps _).bind fun _ =>
    (editor.capabilitiesOf_keeps _ _).bind fun _ =>
      (editor.detachEach_keeps stable _ _ _).bind fun _ =>
        (editor.summaries_keeps _).bind fun _ => Keeps.pure _

/-! ### Moving in space -/

theorem moveRelative_keeps (params : MoveRelative) :
    Keeps (fun scene _ => P scene) (editor.moveRelative params) := by
  apply (editor.plot_keeps params).bind
  intro course
  refine (Keeps.forM fun id => ?_).bind fun _ =>
    (editor.summaries_keeps course.targets).bind fun _ => Keeps.pure _
  exact (editor.writePosition_keeps (stable.at id) course.type _).bind fun _ =>
    (note_keeps _).bind fun _ => Keeps.tell _ _ _

/-! ### Creating, copying and destroying -/

theorem discard_keeps (id : EntityId) :
    Keeps (fun scene _ => P scene) (editor.discard id) := by
  apply (editor.destroyRequest_keeps stable id).bind
  intro answer
  cases answer with
  | error refusal => exact Keeps.tell _ _ _
  | ok _ => exact Keeps.pure _

theorem create_keeps (params : Create) :
    Keeps (fun scene _ => P scene) (editor.create params) := by
  apply (editor.draft_keeps params).bind
  intro draft
  apply (editor.createRequest_keeps stable _ _ draft.parent).bind
  intro id
  refine ((editor.populate_keeps (stable.at id) _ _ _ _).orUndo
    (editor.discard_keeps stable id)).bind fun _ => ?_
  exact (note_keeps _).bind fun _ => (Keeps.tell _ _ _).bind fun _ =>
    (editor.summaries_keeps _).bind fun _ => Keeps.pure _

theorem destroyEach_keeps (ids : List EntityId) :
    Keeps (fun scene _ => P scene) (editor.destroyEach ids) := by
  induction ids with
  | nil => exact Keeps.pure _
  | cons id rest ih =>
      refine Keeps.scene.bind fun scene => Keeps.ite ih ?_
      refine Keeps.bind (Keeps.require fun _ _ _ _ h made => ?_) fun _ =>
        (note_keeps _).bind fun _ => (Keeps.tell _ _ _).bind fun _ => ih.bind fun _ => Keeps.pure _
      exact stable.destroy h (destroyRequest_eq_ok_iff.mp made).2

theorem delete_keeps (query : Query) :
    Keeps (fun scene _ => P scene) (editor.delete query) :=
  (editor.targets_keeps query).bind fun _ => editor.destroyEach_keeps stable _

theorem duplicate_keeps (params : Duplicate) :
    Keeps (fun scene _ => P scene) (editor.duplicate params) := by
  apply (editor.firstTarget_keeps _).bind
  intro source
  apply (editor.newParent_keeps _).bind
  intro parent
  refine Keeps.ite (editor.transformType_keeps.map.bind fun transform => ?_)
    ((Keeps.pure none).bind fun transform => ?_) <;>
  · apply (editor.copyName_keeps source _).bind
    intro name
    apply (editor.duplicateRequest_keeps stable _ source name).bind
    intro copy
    refine ((editor.placeCopy_keeps (stable.at copy) parent transform params).orUndo
      (editor.discard_keeps stable copy)).bind fun _ => ?_
    exact (note_keeps _).bind fun _ => (Keeps.tell _ _ _).bind fun _ =>
      (editor.summaries_keeps _).bind fun _ => Keeps.pure _

/-! ### Modifying -/

theorem attachAndMove_keeps (entity : EntityId) (plan : ModifyPlan) :
    Keeps (fun scene _ => P scene) (editor.attachAndMove entity plan) := by
  apply (editor.attachAll_keeps stable _ _).bind
  intro attached
  split
  · exact (editor.parentRequest_keeps (stable.at entity) _ _).orUndo
      (editor.detachAll_keeps _ fun pair _ => stable.at pair.1)
  · exact Keeps.pure _

theorem detachFrom_keeps (id : EntityId) (changed : Bool) (removed : List CapabilityId) :
    Keeps (fun scene _ => P scene) (editor.detachFrom id changed removed) := by
  induction removed generalizing changed with
  | nil => exact Keeps.pure _
  | cons capability rest ih =>
      refine Keeps.bind (Keeps.outcome (Keeps.require fun _ _ _ _ h made => ?_)) fun outcome => ?_
      · exact stable.detach h (detachRequest_eq_ok_iff.mp made).2
      · cases outcome with
        | error report => exact Keeps.pure _
        | ok _ => exact ih true

theorem restructure_keeps (id : EntityId) (plan : ModifyPlan) (removed : List CapabilityId) :
    Keeps (fun scene _ => P scene) (editor.restructure id plan removed) := by
  apply (editor.attachAndMove_keeps stable id plan).outcome.bind
  intro outcome
  cases outcome with
  | error report => exact Keeps.pure _
  | ok _ =>
      refine (editor.detachFrom_keeps stable id _ removed).bind fun (changed, outcome) => ?_
      cases outcome with
      | error report => exact Keeps.pure _
      | ok _ =>
          apply (editor.changeRecord_keeps (stable.at id) _).outcome.bind
          intro outcome
          cases outcome with
          | error report => exact Keeps.pure _
          | ok _ => exact Keeps.pure _

theorem writeProperties_keeps (id : EntityId) (writes : Writes) :
    Keeps (fun scene _ => P scene) (editor.writeProperties id writes) := by
  induction writes with
  | nil => exact Keeps.pure _
  | cons write rest ih =>
      exact (editor.capabilityOf_keeps _ id).bind fun _ =>
        (editor.writeEach_keeps stable id _ _ _).bind fun _ => ih.bind fun _ => Keeps.pure _

theorem modifyOne_keeps (plan : ModifyPlan) (id : EntityId) (removed : List CapabilityId) :
    Keeps (fun scene _ => P scene) (editor.modifyOne plan id removed) := by
  refine (editor.restructure_keeps stable id plan removed).bind fun (changed, outcome) => ?_
  have finish : Keeps (fun scene _ => P scene)
      (.ofExcept outcome >>= fun _ => editor.writeProperties id plan.writes) :=
    (Keeps.ofExcept outcome).bind fun _ => editor.writeProperties_keeps stable id _
  exact Keeps.ite ((note_keeps _).bind fun _ => finish) finish

theorem modifyEach_keeps (plan : ModifyPlan) (done : List EntityId)
    (entities : List (EntityId × List CapabilityId)) :
    Keeps (fun scene _ => P scene) (editor.modifyEach plan done entities) := by
  induction entities generalizing done with
  | nil => exact Keeps.pure _
  | cons entity rest ih =>
      exact (editor.modifyOne_keeps stable plan _ _).reporting.bind fun _ =>
        (ih _).bind fun _ => Keeps.pure _

theorem modify_keeps (params : Modify) :
    Keeps (fun scene _ => P scene) (editor.modify params) := by
  apply (editor.prepare_keeps params).bind
  intro prepared
  exact (editor.modifyEach_keeps stable _ _ _).bind fun _ =>
    (editor.summaries_keeps prepared.targets).bind fun _ => Keeps.pure _

end

/-! ### Executing -/

theorem find_keeps {P : Scene → List Note → Prop} (editor : Editor) (query : Query) :
    Keeps P (editor.find query) :=
  (editor.search_keeps query).bind fun _ => editor.summaries_keeps _

theorem readCapabilities_keeps {P : Scene → List Note → Prop} (editor : Editor)
    (params : ReadCapabilities) : Keeps P (editor.readCapabilities params) := by
  have size : Keeps P (editor.pageSize params.pageSize) := by
    unfold pageSize
    split
    · exact Keeps.pure _
    · exact Keeps.fail _
    · exact Keeps.pure _
  refine size.bind fun size => (editor.firstTarget_keeps _).bind fun id => ?_
  refine Keeps.scene.bind fun scene => (Keeps.ofExcept _).bind fun entity => ?_
  exact Keeps.check (Keeps.pure _)

theorem readCapability_keeps {P : Scene → List Note → Prop} (editor : Editor)
    (params : ReadCapability) : Keeps P (editor.readCapability params) := by
  apply (editor.firstTarget_keeps _).bind
  intro id
  apply (editor.capabilityType_keeps _).bind
  intro type
  apply (editor.capabilityOf_keeps type id).bind
  intro capability
  split
  · exact (Keeps.ofAttempt _).bind fun _ => Keeps.pure _
  · exact Keeps.pure _

theorem carryOut_keeps {P : Scene → List Note → Prop} {α : Type} (action : Action)
    (decode : Decoder α) (params : Token) {run : α → Edit Reply} (each : ∀ a, Keeps P (run a)) :
    Keeps P (carryOut action decode params run) := by
  rw [carryOut]
  split
  · exact each _
  · exact Keeps.fail _

/-- An operation keeps what every change of a scene keeps. -/
theorem perform_keeps {P : Scene → Prop} (stable : Scene.Stable P) (editor : Editor)
    (action : Action) (params : Token) :
    Keeps (fun scene _ => P scene) (editor.perform action params) := by
  cases action <;> refine carryOut_keeps _ _ _ fun params => Keeps.map ?_
  case find => exact editor.find_keeps params
  case readCapabilities => exact editor.readCapabilities_keeps params
  case readCapability => exact editor.readCapability_keeps params
  case create => exact editor.create_keeps stable params
  case modify => exact editor.modify_keeps stable params
  case delete => exact editor.delete_keeps stable params
  case duplicate => exact editor.duplicate_keeps stable params
  case addCapability => exact editor.addCapability_keeps stable params
  case removeCapability => exact editor.removeCapability_keeps stable params
  case setCapabilityProperties => exact editor.setProperties_keeps stable params
  case moveRelative => exact editor.moveRelative_keeps stable params

/-- So does responding to a request, whatever it carries. -/
theorem respond_keeps {P : Scene → Prop} (stable : Scene.Stable P) (editor : Editor)
    (session : Session) (action : Action) (params : Token) (holds : P session.scene) :
    P (editor.respond session action params).2.scene := by
  have kept := editor.perform_keeps stable action params
    (session.log [⟨.debug, .requests, s!"Executing {action.name}"⟩]) holds
  rw [WP] at kept
  rw [respond]
  dsimp only
  split
  · rename_i reply after run
    rwa [run] at kept
  · rename_i report after run
    rwa [run] at kept

theorem execute_keeps {P : Scene → Prop} (stable : Scene.Stable P) (editor : Editor)
    (session : Session) (action : String) (params : Token) (holds : P session.scene) :
    P (editor.execute session action params).2.scene := by
  rw [execute]
  split
  · exact editor.respond_keeps stable session _ params holds
  · exact holds

end Editor
end SceneEdit
