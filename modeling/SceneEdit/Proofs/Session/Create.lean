import SceneEdit.Proofs.Session.Assembly

/-!
# What creating builds

A creation has two parts. `Editor.draft` looks everything up and changes nothing; then the entity is
created and completed. The types that capabilities are wanted of need not be distinct, but those
that the entity gets are, and all properties for a type are written into its one capability. So
there is one capability for each entry of the request if and only if no two entries are of the same
type (`Editor.create_builds_iff`).
-/

namespace SceneEdit.Editor

open Edit Scene

variable {editor : Editor} {scene : Scene} {session : Session} {wants : Writes}
variable {capabilities : List Capability}

/-! ### What is looked up -/

/-- All that is written into capabilities: the placement, then the properties that are wanted. -/
def Draft.writes (editor : Editor) (params : Create) (draft : Draft) : Writes :=
  editor.placed params.placement draft.transform ++ draft.wants

/-- The fields that are reported. -/
def Draft.fields (editor : Editor) (params : Create) (draft : Draft) : List String :=
  (editor.placed params.placement draft.transform).flatMap (fun write => write.2.keys) ++
    draft.wants.flatMap Writes.fields

/-- A name means a type for a host that remembers some types. -/
def Means (editor : Editor) (name : String) (type : Descriptor) : Prop :=
  ∃ known : TypeCache, (known.resolve editor.host.env.catalog .capability name).result.map
    Prod.fst = .ok type

/-- What was looked up is what a request names. -/
structure Draft.Fits (editor : Editor) (scene : Scene) (params : Create) (draft : Draft) :
    Prop where
  name : draft.name = Text.trim params.name
  named : draft.name ≠ ""
  parent : params.parent.mapM (editor.host.resolveUnique scene true) = .ok draft.parent
  layer : params.layer.mapM (fun text => Host.layer scene (Text.trim text)) = .ok draft.layer
  wants : List.Forall₂ (fun spec want => editor.Means spec.typeName want.1 ∧
    want.2 = spec.properties) params.capabilities draft.wants
  transform : ∀ type, draft.transform = some type →
    editor.Means editor.config.transform.capability type
  placed : draft.transform.isSome = !params.placement.isEmpty

theorem capabilityType_means (name : String) :
    Finds scene (editor.capabilityType name) (editor.Means name) := by
  rintro session -
  rw [capabilityType, WP.bind_iff, WP.get_iff, WP.bind_iff, WP.ofAttempt_iff]
  cases answer : (session.types.resolve editor.host.env.catalog .capability name).result with
  | error report => trivial
  | ok found =>
      refine WP.bind_iff.mpr (WP.modify_iff.mpr (WP.pure_iff.mpr ⟨session.types, ?_⟩))
      rw [answer]
      rfl

theorem specTypes_means (specs : List CapabilitySpec) :
    Finds scene (editor.specTypes specs) (List.Forall₂ (fun spec want =>
      editor.Means spec.typeName want.1 ∧ want.2 = spec.properties) specs) := by
  refine Finds.mapM (fun _ _ => (editor.capabilityType_keeps _).bind fun _ => Keeps.pure _) ?_
  intro spec
  refine Finds.bind (fun _ => editor.capabilityType_keeps _) (capabilityType_means _) ?_
  exact fun type means => Finds.pure ⟨means, rfl⟩

theorem draft_finds (params : Create) :
    Finds scene (editor.draft params) fun draft => draft.Fits editor scene params := by
  rw [draft]
  dsimp only
  split
  · exact fun _ _ => WP.bind_iff.mpr (WP.fail_iff.mpr trivial)
  rename_i named
  apply Finds.bind (fun _ => Keeps.mapMOption fun _ => editor.reference_keeps _)
    (Finds.mapMOption (fun _ _ => editor.reference_keeps _)
      fun _ => Finds.ofScene fun _ answer => answer)
  intro parent above
  apply Finds.bind (fun _ => Keeps.mapMOption fun _ => editor.layer_keeps _)
    (Finds.mapMOption (fun _ _ => editor.layer_keeps _)
      fun _ => Finds.ofScene fun _ answer => answer)
  intro layer numbered
  apply Finds.bind (fun _ => editor.specTypes_keeps _) (specTypes_means _)
  intro wants meant
  have placing : Finds scene (editor.placementType params.placement) fun transform =>
      (∀ type, transform = some type → editor.Means editor.config.transform.capability type) ∧
        transform.isSome = !params.placement.isEmpty := by
    rw [placementType]
    split
    · rename_i nothing
      exact Finds.pure ⟨by simp, by simp [nothing]⟩
    · rename_i some
      refine Finds.bind (fun _ => editor.transformType_keeps) (capabilityType_means _) ?_
      exact fun type means => Finds.pure ⟨by simpa using means, by simp [some]⟩
  apply Finds.bind (fun _ => editor.placementType_keeps _) placing
  rintro transform ⟨means, placed⟩
  exact Finds.pure ⟨rfl, named, above, numbered, meant, means, placed⟩

/-- The entity that is asked for, with some capabilities. -/
def Draft.entity (scene : Scene) (params : Create) (draft : Draft)
    (capabilities : List Capability) : Entity where
  id := ⟨scene.nextEntity⟩
  name := draft.name
  tag := params.tag.getD defaultTag
  layer := draft.layer.getD 0
  active := params.active.getD true
  parent := draft.parent
  capabilities

theorem underway_newborn (editor : Editor) (wf : scene.WellFormed) {name : String}
    {parent : Option EntityId} {id : EntityId} {changed : Scene}
    (done : scene.create name parent = .ok (id, changed)) :
    id = ⟨scene.nextEntity⟩ ∧ editor.Underway scene (scene.newborn name parent) [] changed := by
  have wf' := wf.create done
  obtain ⟨-, rfl, rfl⟩ := create_eq_ok_iff.mp done
  exact ⟨rfl, wf', _, rfl, .birth editor scene⟩

/-- The entity is appended to the scene, completed and told of. -/
theorem build_outcome (granted : ∀ request, editor.host.Grants request)
    (wf : session.scene.WellFormed) (params : Create) (draft : Draft) :
    WP (editor.build params draft)
      (fun report left => ∃ capabilities,
        left.scene = session.scene.plus (draft.entity session.scene params capabilities) ∧
        left.notes = session.notes ++ [.created ⟨session.scene.nextEntity⟩] ∧
        report.entities.map EntitySummary.id = [⟨session.scene.nextEntity⟩] ∧
        report.batch.applied = (draft.fields editor params).map
          (fun field => ⟨⟨session.scene.nextEntity⟩, field⟩) ∧
        (∀ write ∈ editor.placed params.placement draft.transform,
          write.1.fullName ∈ session.scene.birthTypes) ∧
        editor.Assembly session.scene (draft.writes editor params) capabilities)
      (fun _ _ => True) session := by
  rw [build, WP.bind_iff, WP.require_iff]
  cases answer : (editor.createRequest draft.name draft.parent session.scene).result with
  | error refusal => trivial
  | ok made =>
      obtain ⟨id, changed⟩ := made
      have done := (createRequest_eq_ok_iff.mp answer).2
      obtain ⟨rfl, underway⟩ := editor.underway_newborn wf done
      have new : (session.scene.newborn draft.name draft.parent).id ∉
          session.scene.entities.map Entity.id := wf.nextEntity_not_mem
      refine WP.bind_iff.mpr (WP.orUndo_iff.mpr ?_)
      refine WP.mono (populate_builds granted new (draft.record params)
        params.placement draft.transform draft.wants ?_) ?_ fun _ _ _ => WP.true _
      · exact underway
      · rintro _ left ⟨rfl, born, ⟨-, capabilities, scene, assembly⟩, notes⟩
        refine WP.bind_iff.mpr (WP.note_iff.mpr (WP.bind_iff.mpr (WP.tell_iff.mpr ?_)))
        have kept := editor.summaries_keeps (P := fun now sent => now = left.scene ∧
          sent = left.notes ++ [.created ⟨session.scene.nextEntity⟩])
          [⟨session.scene.nextEntity⟩]
        refine WP.bind_iff.mpr (WP.mono ((kept _ ?_).and (summaries_ids _ _)) ?_
          fun _ _ _ => trivial)
        · exact ⟨rfl, rfl⟩
        · rintro entities after ⟨⟨scene', notes'⟩, shown⟩
          refine WP.pure_iff.mpr ⟨capabilities, scene'.trans scene, ?_, shown, rfl, born, assembly⟩
          exact notes'.trans (congrArg (· ++ _) notes)

/-! ### One capability for each entry -/

/-- The wants of types of which an entity has no capability when it is created. -/
def besides (scene : Scene) (wants : Writes) : Writes :=
  wants.filter fun want => want.1.fullName ∉ scene.birthTypes

/-- Beside those that it was created with, an entity has one capability for each want, in the order
of the wants, and in the state to which the properties of this want lead. -/
def OneForEach (editor : Editor) (scene : Scene) (wants : Writes)
    (capabilities : List Capability) : Prop :=
  List.Forall₂ (fun want capability => want.1.fullName = capability.type.fullName ∧
      ∃ template, editor.host.env.catalog.instantiate? want.1.fullName = some template ∧
        editor.access.afterAll template want.2 = .ok capability.state)
    (besides scene wants) (capabilities.drop scene.birthCapabilities.length)

theorem forall₂_names_iff :
    List.Forall₂ (fun want capability => want.1.fullName = capability.type.fullName) wants
      capabilities ↔ wants.map (fun want => want.1.fullName) =
        capabilities.map fun capability => capability.type.fullName := by
  rw [← List.forall₂_eq_eq_eq, List.forall₂_map_left_iff, List.forall₂_map_right_iff]

/-- What is related is listed. -/
theorem forall₂_mem {α β : Type} {R : α → β → Prop} {first : List α} {second : List β}
    (related : List.Forall₂ R first second) :
    List.Forall₂ (fun a b => a ∈ first ∧ b ∈ second ∧ R a b) first second := by
  refine (List.forall₂_and_left _ _).mpr ⟨fun _ member => member, List.Forall₂.flip ?_⟩
  exact (List.forall₂_and_left _ _).mpr ⟨fun _ member => member, related.flip⟩

theorem entriesFor_besides {fullName : TypeName} (other : fullName ∉ scene.birthTypes) :
    (besides scene wants).entriesFor fullName = wants.entriesFor fullName := by
  rw [Writes.entriesFor, Writes.entriesFor, besides, List.filter_filter]
  congr 2
  funext want
  by_cases named : want.1.fullName = fullName
  · simp [named, other]
  · simp [named]

namespace Assembly

variable {placed : Writes} (assembly : editor.Assembly scene (placed ++ wants) capabilities)
variable (born : ∀ write ∈ placed, write.1.fullName ∈ scene.birthTypes)
include assembly born

/-- Every other type that is wanted has one capability. -/
theorem names_besides : (capabilities.drop scene.birthCapabilities.length).map
    (fun capability => capability.type.fullName) =
      ((besides scene wants).map fun want => want.1.fullName).eraseDups := by
  have count : scene.birthTypes.length = scene.birthCapabilities.length := List.length_map _
  -- A placement goes into a capability that the entity was created with, so it names no other type.
  have none : (placed.map fun write => write.1.fullName).filter
      (fun fullName => !scene.birthTypes.elem fullName) = [] := by
    refine List.filter_eq_nil_iff.mpr (List.forall_mem_map.mpr fun write member => ?_)
    simpa using born write member
  rw [List.map_drop, assembly.names, List.eraseDups_append,
    eraseDups_eq_self (nodup_birthTypes scene), ← count, List.drop_left, List.map_append,
    List.removeAll, List.filter_append, none, List.nil_append, List.filter_map]
  congr 3
  funext want
  simp

/-- The capability of a type that is wanted once has the properties of this want. -/
theorem state_of_once (once : (besides scene wants).Distinct) {want : Descriptor × Entries}
    (member : want ∈ besides scene wants) {capability : Capability}
    (inside : capability ∈ capabilities) (named : want.1.fullName = capability.type.fullName) :
    ∃ template, editor.host.env.catalog.instantiate? want.1.fullName = some template ∧
      editor.access.afterAll template want.2 = .ok capability.state := by
  have other : want.1.fullName ∉ scene.birthTypes := by simpa using (List.mem_filter.mp member).2
  have unplaced : placed.entriesFor want.1.fullName = [] :=
    Writes.entriesFor_eq_nil fun listed => by
      obtain ⟨write, inside, same⟩ := List.mem_map.mp listed
      exact other (same ▸ born write inside)
  have wanted : wants.entriesFor want.1.fullName = want.2 :=
    (entriesFor_besides other).symm.trans (once.entriesFor member)
  obtain ⟨start, starts, grown⟩ := assembly.states capability inside
  rw [← named, startOf?_of_not_mem other] at starts
  rw [← named, Writes.entriesFor_append, unplaced, wanted] at grown
  exact ⟨start, starts, grown⟩

theorem oneForEach_iff :
    editor.OneForEach scene wants capabilities ↔ (besides scene wants).Distinct := by
  have names := assembly.names_besides born
  constructor
  · -- The capabilities are of distinct types, so wants that have one each are too.
    intro each
    have same := forall₂_names_iff.mp (each.imp fun _ _ both => both.1)
    rw [Writes.Distinct, same, names]
    exact nodup_eraseDups _
  · intro once
    rw [eraseDups_eq_self once] at names
    refine List.Forall₂.imp ?_ (forall₂_mem (forall₂_names_iff.mpr names.symm))
    rintro want capability ⟨wanted, inside, named⟩
    exact ⟨named, assembly.state_of_once born once wanted (List.mem_of_mem_drop inside) named⟩

end Assembly

/-! ### The whole creation -/

theorem create_outcome (granted : ∀ request, editor.host.Grants request)
    (wf : session.scene.WellFormed) {params : Create} {report : EntityReport} {after : Session}
    (ran : (editor.create params).run session = (.ok report, after)) :
    ∃ draft capabilities, ((editor.draft params).run session).1 = .ok draft ∧
      draft.Fits editor session.scene params ∧
      after.scene = session.scene.plus (draft.entity session.scene params capabilities) ∧
      after.notes = session.notes ++ [.created ⟨session.scene.nextEntity⟩] ∧
      report.entities.map EntitySummary.id = [⟨session.scene.nextEntity⟩] ∧
      report.batch.applied = (draft.fields editor params).map
        (fun field => ⟨⟨session.scene.nextEntity⟩, field⟩) ∧
      (∀ write ∈ editor.placed params.placement draft.transform,
        write.1.fullName ∈ session.scene.birthTypes) ∧
      editor.Assembly session.scene (draft.writes editor params) capabilities := by
  rw [create] at ran
  obtain ⟨draft, middle, drafted, ran⟩ := run_bind_eq_ok_iff.mp ran
  obtain ⟨scene, notes⟩ := (editor.draft_keeps
    (P := fun scene notes => scene = session.scene ∧ notes = session.notes) params session
    ⟨rfl, rfl⟩).ok drafted
  have found : ((editor.draft params).run session).1 = .ok draft := congrArg Prod.fst drafted
  have built := (build_outcome granted (scene ▸ wf) params draft).ok ran
  rw [scene, notes] at built
  obtain ⟨capabilities, built⟩ := built
  exact ⟨draft, capabilities, found, (draft_finds params).of_run rfl found, built⟩

/-- In every reachable scene, a creation that succeeds on a plain host appends one entity and tells
of it; nothing else changes. The entity has the trimmed name, what the request gives for its record,
and as parent and layer what the request names. Its capabilities are those that it is created with
and one for every other type that is wanted, in the order in which the types are named first. Each
is in the state to which all properties for its type lead, so a property is still there in the end
unless a later one of the same type went there. There is one capability for each entry of the
request, with its properties alone, if and only if no two of these entries are of the same type. -/
theorem create_builds_iff (reached : session.scene.Reachable) (plain : editor.host.refusals = [])
    {params : Create} {report : EntityReport} {after : Session}
    (ran : (editor.create params).run session = (.ok report, after)) :
    ∃ draft capabilities, ((editor.draft params).run session).1 = .ok draft ∧
      draft.Fits editor session.scene params ∧
      after.scene = session.scene.plus (draft.entity session.scene params capabilities) ∧
      after.notes = session.notes ++ [.created ⟨session.scene.nextEntity⟩] ∧
      report.entities.map EntitySummary.id = [⟨session.scene.nextEntity⟩] ∧
      report.batch.applied = (draft.fields editor params).map
        (fun field => ⟨⟨session.scene.nextEntity⟩, field⟩) ∧
      editor.Assembly session.scene (draft.writes editor params) capabilities ∧
      (∀ capability ∈ capabilities, ∃ start,
        editor.startOf? session.scene capability.type.fullName = some start ∧
        ∀ before entry later, (draft.writes editor params).entriesFor capability.type.fullName =
          before ++ entry :: later →
          editor.access.Lasts start capability.state before entry later) ∧
      (editor.OneForEach session.scene draft.wants capabilities ↔
        (besides session.scene draft.wants).Distinct) := by
  obtain ⟨draft, capabilities, found, fits, scene, told, shown, applied, born, assembly⟩ :=
    create_outcome (Host.grants_of_plain plain) reached.wellFormed ran
  refine ⟨draft, capabilities, found, fits, scene, told, shown, applied, assembly, ?_,
    assembly.oneForEach_iff born⟩
  intro capability member
  obtain ⟨start, starts, grown⟩ := assembly.states capability member
  exact ⟨start, starts, fun before entry later split => Access.lasts_of_afterAll (split ▸ grown)⟩

/-- A bulb below the lamp, with a capability for each of some types. -/
def bulb (types : List String) : Create :=
  ⟨" Bulb ", some "Lamp", none, none, none, ⟨none, none, none⟩, types.map fun type => ⟨type, []⟩⟩

/-- A bulb gets the capability that it is wanted to have. -/
theorem create_builds_iff_of_bulb :
    let editor : Editor := { host := lampHost [] }
    let created := (editor.create (bulb ["Health"])).run lampSession
    ∃ (report : EntityReport) (draft : Draft) (capabilities : List Capability),
      created.1 = .ok report ∧ created.2.scene =
        lampSession.scene.plus (draft.entity lampSession.scene (bulb ["Health"]) capabilities) ∧
      draft.name = "Bulb" ∧ draft.parent = some ⟨1⟩ ∧
      editor.OneForEach lampSession.scene draft.wants capabilities := by
  intro editor created
  have succeeds : created.1.isOk = true := by decide +kernel
  rcases ran : created with ⟨error | report, after⟩
  · rw [ran] at succeeds
    cases succeeds
  obtain ⟨draft, capabilities, -, fits, scene, -, -, -, -, -, each⟩ :=
    create_builds_iff lampSession_reachable (show editor.host.refusals = [] from rfl) ran
  have parent : (bulb ["Health"]).parent.mapM (editor.host.resolveUnique lampSession.scene true) =
      .ok (some ⟨1⟩) := by
    decide +kernel
  refine ⟨report, draft, capabilities, rfl, scene, fits.name.trans (by decide +kernel),
    Except.ok.inj (fits.parent.symm.trans parent), each.mpr ?_⟩
  obtain ⟨want, one⟩ := List.length_eq_one_iff.mp fits.wants.length_eq.symm
  rw [one]
  exact (List.nodup_singleton _).sublist (List.filter_sublist.map _)

/-- A bulb that is wanted to have two capabilities of one type gets one of them. -/
theorem create_not_one_for_each :
    let editor : Editor := { host := lampHost [] }
    let created := (editor.create (bulb ["Health", "Health"])).run lampSession
    lampSession.scene.Reachable ∧ created.1.isOk = true ∧
      (created.2.scene.entity? ⟨2⟩).map (fun entity =>
        entity.capabilities.map fun capability => capability.type.short) =
          some ["Transform", "Health"] ∧
    ¬ ∀ (editor : Editor) (session after : Session) (params : Create) (report : EntityReport)
      (draft : Draft) (entity : Entity), editor.host.refusals = [] → session.scene.Reachable →
      (editor.create params).run session = (.ok report, after) →
      ((editor.draft params).run session).1 = .ok draft →
      after.scene = session.scene.plus entity →
      editor.OneForEach session.scene draft.wants entity.capabilities := by
  intro editor created
  have succeeds : created.1.isOk = true := by decide +kernel
  have gets : (created.2.scene.entity? ⟨2⟩).map (fun entity =>
      entity.capabilities.map fun capability => capability.type.short) =
        some ["Transform", "Health"] := by
    decide +kernel
  have wants : ((editor.draft (bulb ["Health", "Health"])).run lampSession).1.map (fun draft =>
      (besides lampSession.scene draft.wants).length) = .ok 2 := by
    decide +kernel
  refine ⟨lampSession_reachable, succeeds, gets, fun claimed => ?_⟩
  rcases ran : created with ⟨error | report, after⟩
  · rw [ran] at succeeds
    cases succeeds
  obtain ⟨draft, capabilities, found, -, scene, -⟩ := create_outcome
    (Host.grants_of_plain (show editor.host.refusals = [] from rfl))
    lampSession_reachable.wellFormed ran
  have each := claimed editor lampSession after _ report draft _ rfl lampSession_reachable ran found
    scene
  have two : (besides lampSession.scene draft.wants).length = 2 := by
    rw [found] at wants
    exact Except.ok.inj wants
  have here : after.scene.entity? ⟨2⟩ =
      some (draft.entity lampSession.scene (bulb ["Health", "Health"]) capabilities) :=
    scene ▸ entity?_plus _ lampSession_reachable.wellFormed.nextEntity_not_mem
  have count : capabilities.length = 2 := by
    rw [ran, here] at gets
    exact (List.length_map _).symm.trans (congrArg List.length (Option.some.inj gets))
  have one : (capabilities.drop lampSession.scene.birthCapabilities.length).length = 1 := by
    rw [List.length_drop, count]
    rfl
  exact absurd (two.symm.trans (each.length_eq.trans one)) (by decide)

end SceneEdit.Editor
