import SceneEdit.Proofs.Query.Order
import SceneEdit.Proofs.Session.Motion

/-!
# Every change is told once

On a host that refuses nothing, the notes that an operation sends account for all that it changes,
whether it succeeds or fails, and no note is sent twice (`Editor.changes_accounted`). Operations
that undo what they did have nothing to tell when they fail. The others tell of each entity as they
go, so what was changed before a failure has been told.
-/

namespace SceneEdit

namespace Edit

variable {α β : Type}

/-- An edit of a session, however it ends: the notes that were sent after some others account for
what has changed since a scene. -/
def Tells (scene : Scene) (notes : List Note) (session : Session) (x : Edit α) : Prop :=
  WP x (fun _ left => scene.Told notes left.scene left.notes)
    (fun _ left => scene.Told notes left.scene left.notes) session

namespace Tells

variable {scene : Scene} {notes : List Note} {session : Session} {x : Edit α}

/-- Changes that are told, followed by what changes nothing. -/
theorem bind_quiet {f : α → Edit β} (tells : Tells scene notes session x)
    (quiet : ∀ a P, Keeps P (f a)) : Tells scene notes session (x >>= f) :=
  WP.bind_iff.mpr (WP.mono tells (fun a left told => quiet a (scene.Told notes) left told)
    fun _ _ told => told)

theorem map {f : α → β} (tells : Tells scene notes session x) :
    Tells scene notes session (f <$> x) := by
  rw [map_eq_pure_bind]
  exact tells.bind_quiet fun _ _ => Keeps.pure _

end Tells

/-- An edit whose notes account for what it changes, however it ends. -/
def Accounts (scene : Scene) (notes : List Note) (x : Edit α) : Prop :=
  ∀ session, session.scene = scene → session.notes = notes → Tells scene notes session x

namespace Accounts

variable {scene : Scene} {notes : List Note}

theorem of_quiet (wf : scene.WellFormed) {x : Edit α} (quiet : ∀ P, Keeps P x) :
    Accounts scene notes x := by
  intro session sameScene sameNotes
  have told : scene.Told notes session.scene session.notes := by
    rw [sameScene, sameNotes]
    exact .of_agrees wf (.refl scene)
  exact quiet (scene.Told notes) session told

/-- A first step that changes nothing; what it finds out may be used in what follows. -/
theorem bind (wf : scene.WellFormed) {x : Edit α} {f : α → Edit β} {fact : α → Prop}
    (quiet : ∀ P, Keeps P x) (finds : Finds scene x fact)
    (rest : ∀ a, fact a → Accounts scene notes (f a)) : Accounts scene notes (x >>= f) := by
  intro session sameScene sameNotes
  rw [Tells, WP.bind_iff]
  have same := quiet (fun now sent => now = scene ∧ sent = notes) session ⟨sameScene, sameNotes⟩
  refine (same.and (finds session sameScene)).mono ?_ ?_
  · rintro a left ⟨⟨leftScene, leftNotes⟩, found⟩
    exact rest a found left leftScene leftNotes
  · rintro report left ⟨⟨leftScene, leftNotes⟩, _⟩
    rw [leftScene, leftNotes]
    exact .of_agrees wf (.refl scene)

theorem bind_quiet (wf : scene.WellFormed) {x : Edit α} {f : α → Edit β} (quiet : ∀ P, Keeps P x)
    (rest : ∀ a, Accounts scene notes (f a)) : Accounts scene notes (x >>= f) :=
  bind wf quiet (Finds.any scene x) fun a _ => rest a

theorem ite {condition : Prop} [Decidable condition] {x y : Edit α}
    (yes : Accounts scene notes x) (no : Accounts scene notes y) :
    Accounts scene notes (if condition then x else y) := by
  split
  · exact yes
  · exact no

theorem check (wf : scene.WellFormed) {condition : Prop} [Decidable condition] {error : Error}
    {f : β → Edit α} {rest : Edit α} (passed : Accounts scene notes rest) :
    Accounts scene notes (if condition then SceneEdit.fail error >>= f else rest) := by
  split
  · rintro session rfl rfl
    rw [Tells, WP.bind_iff, WP.fail_iff]
    exact .of_agrees wf (.refl _)
  · exact passed

/-- Changes of entities one by one, followed by what changes nothing. -/
theorem of_owing (wf : scene.WellFormed) {x : Edit α} {f : α → Edit β} {ahead : Note → Prop}
    (owes : ∀ {session : Session}, scene.Owing notes [] ahead session.scene session.notes →
      WP x (fun _ left => scene.Owing notes [] (Scene.About []) left.scene left.notes)
        (fun _ left => scene.Owing notes [] (Scene.About []) left.scene left.notes) session)
    (quiet : ∀ a P, Keeps P (f a)) : Accounts scene notes (x >>= f) := by
  rintro session rfl rfl
  refine Tells.bind_quiet ((owes (.start wf)).mono ?_ ?_) quiet
  · exact fun _ _ owing => owing.told wf
  · exact fun _ _ owing => owing.told wf

end Accounts
end Edit

namespace Editor

open Edit Scene

variable {editor : Editor} {scene base : Scene} {notes : List Note} {id : EntityId}
variable {session : Session}

/-! ### Creating and copying -/

/-- A new entity is completed and told of, or destroyed again. -/
theorem completeOrDiscard_tells {α β : Type} {x : Edit α} {f : α → Edit β}
    {adjust : Report → Report} (wf : base.WellFormed)
    (destroys : editor.host.Grants .destroyEntity)
    (completes : Keeps (fun scene sent => base.AddsSubtree id scene ∧ sent = notes) x)
    (quiet : ∀ a P, Keeps P (f a)) (added : base.AddsSubtree id session.scene)
    (same : session.notes = notes) :
    Tells base notes session
      (x.orUndo (editor.discard id) adjust >>= fun a => .note (.created id) >>= fun _ => f a) := by
  rw [Tells, WP.bind_iff, WP.orUndo_iff]
  refine (completes session ⟨added, same⟩).mono ?_ ?_
  · rintro a left ⟨added, rfl⟩
    refine WP.bind_iff.mpr (WP.note_iff.mpr (quiet a (base.Told left.notes) _ ?_))
    exact ⟨[.created id], rfl, .of_addsSubtree added⟩
  · rintro report left ⟨added, rfl⟩
    have restores := @discard_restores editor base id destroys
      (fun _ after => base.Told left.notes after.scene after.notes) left added
    refine restores.mono ?_ fun _ _ told => told
    rintro _ after ⟨agrees, sent⟩
    rw [sent]
    exact .of_agrees wf agrees

theorem create_accounts (wf : scene.WellFormed) (destroys : editor.host.Grants .destroyEntity)
    (params : Create) : Accounts scene notes (editor.create params) := by
  apply Accounts.bind_quiet wf fun _ => editor.draft_keeps params
  intro draft
  rintro session rfl rfl
  rw [build, Tells, WP.bind_iff, WP.require_iff]
  cases asked : (editor.createRequest draft.name draft.parent session.scene).result with
  | error refusal => exact .of_agrees wf (.refl _)
  | ok made =>
      have added := AddsSubtree.create wf (createRequest_eq_ok_iff.mp asked).2
      refine completeOrDiscard_tells wf destroys
        (editor.populate_keeps addsSubtree_stableAt _ _ _ _) (fun written _ => ?_) added rfl
      exact (Keeps.tell _ _ _).bind fun _ => (editor.summaries_keeps _).bind fun _ => Keeps.pure _

theorem duplicate_accounts (wf : scene.WellFormed) (destroys : editor.host.Grants .destroyEntity)
    (params : Duplicate) : Accounts scene notes (editor.duplicate params) := by
  apply Accounts.bind_quiet wf (fun _ => editor.firstTarget_keeps _)
  intro source
  apply Accounts.bind_quiet wf (fun _ => editor.newParent_keeps _)
  intro parent
  refine Accounts.ite
    (Accounts.bind_quiet wf (fun _ => editor.transformType_keeps.map) fun transform => ?_)
    (Accounts.bind_quiet wf (fun _ => Keeps.pure none) fun transform => ?_) <;>
  · apply Accounts.bind_quiet wf (fun _ => editor.copyName_keeps source _)
    intro name
    rintro session rfl rfl
    rw [Tells, WP.bind_iff, WP.require_iff]
    cases asked : (editor.duplicateRequest source name session.scene).result with
    | error refusal => exact .of_agrees wf (.refl _)
    | ok made =>
        have added := AddsSubtree.duplicate wf (duplicateRequest_eq_ok_iff.mp asked).2
        refine completeOrDiscard_tells wf destroys
          (editor.placeCopy_keeps addsSubtree_stableAt parent transform params) (fun _ _ => ?_)
          added rfl
        exact (Keeps.tell _ _ _).bind fun _ => (editor.summaries_keeps _).bind fun _ => Keeps.pure _

/-! ### Destroying -/

/-- Destroying from the top down never takes a subtree away whose part was taken away before. -/
theorem destroyEach_prunes (wf : base.WellFormed) {ids roots : List EntityId}
    (topDown : base.TopDown ids)
    (order : ∀ root ∈ roots, ∀ id ∈ ids, base.Below root id → root = id)
    (prunes : base.Prunes roots session.scene)
    (sent : session.notes = notes ++ roots.map Note.destroyed) :
    Tells base notes session (editor.destroyEach ids) := by
  induction ids generalizing session roots with
  | nil => exact WP.pure_iff.mpr ⟨_, sent, .of_prunes wf prunes⟩
  | cons id rest ih =>
      obtain ⟨first, topDown⟩ := List.pairwise_cons.mp topDown
      rw [destroyEach]
      refine WP.bind_iff.mpr (WP.scene_iff.mpr ?_)
      split
      · exact ih topDown
          (fun root isRoot other member => order root isRoot other (List.mem_cons_of_mem _ member))
          prunes sent
      · refine WP.bind_iff.mpr (WP.require_iff.mpr ?_)
        cases answer : (editor.destroyRequest id session.scene).result with
        | error refusal => exact ⟨_, sent, .of_prunes wf prunes⟩
        | ok done =>
            refine WP.bind_iff.mpr (WP.note_iff.mpr (WP.bind_iff.mpr (WP.tell_iff.mpr ?_)))
            have destroyed := prunes.destroy wf
              (fun root isRoot => order root isRoot id List.mem_cons_self)
              (destroyRequest_eq_ok_iff.mp answer).2
            refine Tells.bind_quiet (ih topDown ?_ destroyed ?_) fun _ _ => Keeps.pure _
            · intro root isRoot other member below
              rcases List.mem_append.mp isRoot with before | here
              · exact order root before other (List.mem_cons_of_mem _ member) below
              · obtain rfl := List.mem_singleton.mp here
                exact first other member below
            · simp [Session.log, sent]

theorem delete_accounts (wf : scene.WellFormed) (query : Query) :
    Accounts scene notes (editor.delete query) := by
  refine Accounts.bind wf (fun _ => editor.targets_keeps _)
    (targets_of_find fun cache => editor.host.find_topDown wf.toForest cache query) ?_
  rintro targets topDown session rfl rfl
  exact destroyEach_prunes wf topDown (by simp) (.refl wf) (by simp)

/-! ### Attaching -/

/-- The notes for entities that were told of all at once. -/
theorem notes_owe (level : Level) (source : Source) (text : EntityId → String)
    {pairs : List (EntityId × CapabilityId)} (distinct : (pairs.map Prod.fst).Nodup)
    (owing : base.Owing notes (pairs.map fun pair => .changed pair.1) (About (pairs.map Prod.fst))
      session.scene session.notes) :
    WP (pairs.forM fun pair => do
        .note (.changed pair.1)
        .tell level source (text pair.1))
      (fun _ left => base.Owing notes [] (About []) left.scene left.notes)
      (fun _ left => base.Owing notes [] (About []) left.scene left.notes) session := by
  induction pairs generalizing session with
  | nil => exact WP.pure_iff.mpr owing
  | cons pair rest ih =>
      obtain ⟨new, distinct⟩ := List.nodup_cons.mp distinct
      rw [List.forM_eq_forM, List.forM_cons, WP.bind_iff, WP.bind_iff, WP.note_iff, WP.tell_iff]
      refine ih distinct (owing.note List.mem_cons_self
        (@About.tail (rest.map Prod.fst) (.changed pair.1) new) ?_)
      intro entity capability same
      cases same

theorem addCapability_accounts (wf : scene.WellFormed)
    (removes : editor.host.Grants .removeCapability) (params : AddCapability) :
    Accounts scene notes (editor.addCapability params) := by
  apply Accounts.bind wf (fun _ => editor.targets_keeps _) (targets_finds _ _)
  intro targets found
  apply Accounts.bind_quiet wf (fun _ => editor.capabilityType_keeps _)
  intro type
  rintro session rfl rfl
  let wanted := targets.map fun id => (id, type, params.properties)
  have restores := attachAll_restores removes wanted (.refl wf) rfl
  have keeps := editor.attachAll_keeps (later_stable session.scene) [] wanted session (.refl wf)
  refine WP.bind_iff.mpr (((restores.and keeps).and (attachAll_entities wanted)).mono ?_ ?_)
  · rintro attached left ⟨⟨⟨adds, sent⟩, later⟩, entities⟩
    have same : attached.map Prod.fst = targets := by
      rw [entities, List.map_nil, List.nil_append, List.map_map]
      exact List.map_id _
    have owed : session.scene.Owing session.notes (attached.map fun pair => .changed pair.1)
        (About (attached.map Prod.fst)) left.scene left.notes := by
      rw [sent]
      refine ((Owing.start wf).mono (List.nil_subset _) fun _ next => next).change
        fun may owed tracks => tracks.attach adds later fun pair member => ?_
      exact owed _ (List.mem_map_of_mem member)
    let text := fun entity : EntityId => s!"Added {type.short} to entity {entity}"
    refine Tells.bind_quiet ((notes_owe .info .capabilities text (same ▸ found.1) owed).mono ?_ ?_)
      fun _ _ => (editor.summaries_keeps _).bind fun _ => Keeps.pure _
    · exact fun _ _ owing => owing.told wf
    · exact fun _ _ owing => owing.told wf
  · rintro report left ⟨⟨⟨agrees, sent⟩, -⟩, -⟩
    rw [sent]
    exact .of_agrees wf agrees

/-! ### Detaching, writing and moving -/

theorem removeCapability_accounts (wf : scene.WellFormed) (params : RemoveCapability) :
    Accounts scene notes (editor.removeCapability params) := by
  apply Accounts.bind wf (fun _ => editor.targets_keeps _) (targets_finds _ _)
  intro targets found
  apply Accounts.bind_quiet wf (fun _ => editor.capabilityType_keeps _)
  intro type
  refine Accounts.bind wf (fun _ => editor.capabilitiesOf_keeps _ _)
    (capabilitiesOf_finds wf type targets) fun pairs lookedUp => ?_
  exact Accounts.of_owing wf (detachEach_owes [] (lookedUp.1 ▸ found.1)) fun _ _ =>
    (editor.summaries_keeps _).bind fun _ => Keeps.pure _

theorem setProperties_accounts (wf : scene.WellFormed) (params : SetProperties) :
    Accounts scene notes (editor.setProperties params) := by
  apply Accounts.check wf
  apply Accounts.bind wf (fun _ => editor.targets_keeps _) (targets_finds _ _)
  intro targets found
  apply Accounts.bind_quiet wf (fun _ => editor.capabilityType_keeps _)
  intro type
  refine Accounts.bind wf (fun _ => editor.capabilitiesOf_keeps _ _)
    (capabilitiesOf_finds wf type targets) fun pairs lookedUp => ?_
  exact Accounts.of_owing wf (writeEachTo_owes wf params.entries (lookedUp.1 ▸ found.1))
    fun _ _ => Keeps.pure _

theorem moveRelative_accounts (wf : scene.WellFormed) (params : MoveRelative) :
    Accounts scene notes (editor.moveRelative params) := by
  apply Accounts.bind wf (fun _ => editor.plot_keeps params) (plot_finds scene params)
  intro course found
  exact Accounts.of_owing wf (writePositions_owe wf found.1) fun _ _ =>
    (editor.summaries_keeps course.targets).bind fun _ => Keeps.pure _

/-! ### Modifying -/

theorem modify_tells (wf : session.scene.WellFormed) (coherent : session.types.Coherent)
    (removes : editor.host.Grants .removeCapability) (views : editor.host.Grants .viewEntity)
    (params : Modify) : Tells session.scene session.notes session (editor.modify params) := by
  have quiet := editor.prepare_keeps params
    (P := fun now sent => now = session.scene ∧ sent = session.notes) session ⟨rfl, rfl⟩
  have finds := (prepare_fits wf views params session rfl).and (prepare_distinct coherent params)
  rw [modify, Tells, WP.bind_iff]
  refine (quiet.and finds).mono ?_ ?_
  · rintro prepared left ⟨⟨scene, sent⟩, fits, distinct⟩
    have finishes : Accounts session.scene session.notes (editor.finish prepared) := by
      refine Accounts.of_owing wf
        (modifyEach_owes wf removes distinct [] ((map_fst_removals _ _).symm ▸ fits.distinct))
        fun _ _ => (editor.summaries_keeps _).bind fun _ => Keeps.pure _
    exact finishes left scene sent
  · rintro report left ⟨⟨scene, sent⟩, -⟩
    rw [scene, sent]
    exact .of_agrees wf (.refl _)

/-! ### All operations -/

theorem carryOut_tells {α : Type} (wf : session.scene.WellFormed) (action : Action)
    (decode : Decoder α) (params : Token) {run : α → Edit Reply}
    (each : ∀ a, Tells session.scene session.notes session (run a)) :
    Tells session.scene session.notes session (carryOut action decode params run) := by
  rw [carryOut]
  split
  · exact each _
  · exact WP.fail_iff.mpr (.of_agrees wf (.refl _))

theorem perform_tells (plain : editor.host.refusals = []) (wf : session.scene.WellFormed)
    (coherent : session.types.Coherent) (action : Action) (params : Token) :
    Tells session.scene session.notes session (editor.perform action params) := by
  have granted := Host.grants_of_plain plain
  cases action <;> refine carryOut_tells wf _ _ _ fun params => Tells.map ?_
  case find => exact Accounts.of_quiet wf (fun _ => editor.find_keeps params) session rfl rfl
  case readCapabilities =>
    exact Accounts.of_quiet wf (fun _ => editor.readCapabilities_keeps params) session rfl rfl
  case readCapability =>
    exact Accounts.of_quiet wf (fun _ => editor.readCapability_keeps params) session rfl rfl
  case create => exact create_accounts wf (granted _) params session rfl rfl
  case modify => exact modify_tells wf coherent (granted _) (granted _) params
  case delete => exact delete_accounts wf params session rfl rfl
  case duplicate => exact duplicate_accounts wf (granted _) params session rfl rfl
  case addCapability => exact addCapability_accounts wf (granted _) params session rfl rfl
  case removeCapability => exact removeCapability_accounts wf params session rfl rfl
  case setCapabilityProperties => exact setProperties_accounts wf params session rfl rfl
  case moveRelative => exact moveRelative_accounts wf params session rfl rfl

/-- In every reachable scene, after any session history, on a host that refuses nothing: the notes
that executing a request sends account for every difference between the scene before and after, and
none is sent twice. -/
theorem changes_accounted (editor : Editor) (plain : editor.host.refusals = []) {session : Session}
    (reached : session.scene.Reachable) (history : session.types.Reachable) (action : String)
    (params : Token) :
    ∃ sent, (editor.execute session action params).2.notes = session.notes ++ sent ∧
      session.scene.Accounted (editor.execute session action params).2.scene sent := by
  have wf := reached.wellFormed
  refine execute_of_perform
    (I := fun left => session.scene.Told session.notes left.scene left.notes)
    (fun _ _ told => told) (.of_agrees wf (.refl _)) (fun action params events => ?_) action params
  exact @perform_tells editor (session.log events) plain wf history.coherent action params

/-- A modification that detaches what it then cannot write fails, and has told of what it did. -/
theorem changes_accounted_of_failed :
    let after := ({ host := lampHost [] } : Editor).execute wornSession "modify"
      (.obj [("target", .str "Lamp"), ("remove_capabilities", .arr [.str "Health"]),
        ("capability_properties", .obj [("Health", .obj [])])])
    after.1.success = false ∧ after.2.notes = [.changed ⟨1⟩] ∧
      wornSession.scene.Accounted after.2.scene after.2.notes := by
  intro after
  obtain ⟨sent, same, accounted⟩ := changes_accounted { host := lampHost [] } rfl
    wornSession_reachable .fresh "modify" (.obj [("target", .str "Lamp"),
      ("remove_capabilities", .arr [.str "Health"]),
      ("capability_properties", .obj [("Health", .obj [])])])
  have all : after.2.notes = sent := same
  refine ⟨by decide +kernel, by decide +kernel, ?_⟩
  rw [all]
  exact accounted

end Editor
end SceneEdit
