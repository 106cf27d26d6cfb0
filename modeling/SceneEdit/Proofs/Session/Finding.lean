import SceneEdit.Proofs.Query.Membership
import SceneEdit.Proofs.Session.Create

/-!
# Finding what was created

A search looks for its trimmed term. So does whatever reads a name or a layer from a request to
create an entity, so by these a new entity is found with the texts that it was created with, unless
the text of the layer is blank. The tag is stored as it is given: by it the entity is found if and
only if it has no blanks around it (`Editor.created_found_iff`).
-/

namespace SceneEdit

namespace Host

variable {host : Host} {scene : Scene} {cache : TypeCache} {strategy : Strategy} {term : String}

/-- A search for all entities by one criterion runs it over all of them. -/
theorem find_whole (host : Host) (scene : Scene) (cache : TypeCache) (strategy : Strategy)
    (term : String) :
    (host.find scene cache ⟨term, strategy, none, true, true⟩).result.map Prod.fst =
      if Text.trim term = "" then .error { error := .missing "search term" }
      else (host.run scene cache strategy (Text.trim term) none
        (scene.allEntities true)).result.map fun picked => picked.1.eraseDups := by
  rw [find]
  dsimp only
  split
  · rfl
  · rw [Traced.result_bind, Option.mapM_none, Traced.result_ofExcept]
    change (Traced.result (host.run scene cache strategy _ none (scene.allEntities true) >>=
      _)).map _ = _
    rw [Traced.result_bind]
    cases (host.run scene cache strategy (Text.trim term) none (scene.allEntities true)).result with
    | error report => rfl
    | ok picked => rfl

theorem layer_plus (entity : Entity) : layer (scene.plus entity) term = layer scene term := rfl

theorem run_byLayer {index : Nat} (named : layer scene term = .ok index)
    (scope : Option EntityId) (pool : List EntityId) :
    (host.run scene cache .byLayer term scope pool).result =
      .ok (host.select scene pool fun entity => entity.layer = index, cache) := by
  refine (Traced.result_bind (.ofExcept (layer scene term)) _).trans ?_
  rw [Traced.result_ofExcept, named]
  rfl

/-- An entity is among those picked from all if it meets the criterion. -/
theorem mem_run_whole_iff (granted : host.Grants .viewEntity) (forest : scene.Forest)
    (one : strategy ≠ .byIdOrNameOrPath) {picked : List EntityId × TypeCache}
    (ran : (host.run scene cache strategy term none (scene.allEntities true)).result = .ok picked)
    {id : EntityId} {entity : Entity} (record : scene.entity? id = some entity) :
    id ∈ picked.1.eraseDups ↔ Meets host scene cache none term entity strategy := by
  have all : id ∈ scene.allEntities true :=
    forest.mem_allEntities_iff.mpr ⟨Scene.entity?_isSome_iff.mp (by rw [record]; rfl), rfl⟩
  rw [List.mem_eraseDups, mem_run_iff granted cache one term none _ picked ran record]
  exact and_iff_right all

end Host

namespace Editor

open Edit Scene

variable {editor : Editor} {session : Session}

/-- The entities that are shown to who looks for all of them, active or not, by a criterion. -/
def shown (editor : Editor) (session : Session) (strategy : Strategy) (term : String) :
    Except Report (List EntityId) :=
  ((editor.find ⟨term, strategy, none, true, true⟩).run session).1.map fun entities =>
    entities.map EntitySummary.id

theorem shown_eq (views : editor.host.Grants .viewEntity) (strategy : Strategy) (term : String) :
    editor.shown session strategy term =
      (editor.host.find session.scene session.types ⟨term, strategy, none, true, true⟩).result.map
        Prod.fst := by
  have ends : WP (editor.find ⟨term, strategy, none, true, true⟩)
      (fun entities _ => .ok (entities.map EntitySummary.id) = (editor.host.find session.scene
        session.types ⟨term, strategy, none, true, true⟩).result.map Prod.fst)
      (fun report _ => .error report = (editor.host.find session.scene session.types
        ⟨term, strategy, none, true, true⟩).result.map Prod.fst) session := by
    rw [find, search, WP.bind_iff, WP.bind_iff, WP.get_iff, WP.bind_iff, WP.ofAttempt_iff]
    cases answer : (editor.host.find session.scene session.types
      ⟨term, strategy, none, true, true⟩).result with
    | error report => rfl
    | ok found =>
        have known := (editor.host.find_gives _ session.types _ found answer).2
        refine WP.bind_iff.mpr (WP.modify_iff.mpr (WP.pure_iff.mpr ?_))
        refine WP.mono ((summaries_ids found.1 _).and (summaries_succeeds views found.1 _ ?_)) ?_ ?_
        · exact known
        · exact fun _ _ ended => congrArg Except.ok ended.1
        · exact fun _ _ never => never.2.elim
  rw [shown]
  rcases ran : (editor.find ⟨term, strategy, none, true, true⟩).run session with ⟨_ | _, after⟩
  · exact ends.error ran
  · exact ends.ok ran

/-- An entity is shown for a term that is not blank if it meets the criterion. -/
theorem shown_of_run (views : editor.host.Grants .viewEntity) (forest : session.scene.Forest)
    (strategy : Strategy) (one : strategy ≠ .byIdOrNameOrPath) {term : String}
    (given : Text.trim term ≠ "") {picked : List EntityId × TypeCache}
    (ran : (editor.host.run session.scene session.types strategy (Text.trim term) none
      (session.scene.allEntities true)).result = .ok picked)
    {id : EntityId} {entity : Entity} (record : session.scene.entity? id = some entity) :
    ∃ found, editor.shown session strategy term = .ok found ∧
      (id ∈ found ↔ Host.Meets editor.host session.scene session.types none (Text.trim term) entity
        strategy) := by
  refine ⟨picked.1.eraseDups, ?_, Host.mem_run_whole_iff views forest one ran record⟩
  rw [shown_eq views, Host.find_whole, if_neg given, ran]
  rfl

/-- A search shows an entity. -/
def Shows (editor : Editor) (session : Session) (strategy : Strategy) (term : String)
    (id : EntityId) : Prop :=
  ∃ found, editor.shown session strategy term = .ok found ∧ id ∈ found

/-- An entity is shown by every text that was given to create it, if the tag is not blank. -/
structure FoundAgain (editor : Editor) (params : Create) (session : Session) (id : EntityId) :
    Prop where
  byName : editor.Shows session .byName params.name id
  byTag : ∀ tag, params.tag = some tag → Text.trim tag ≠ "" → editor.Shows session .byTag tag id
  byLayer : ∀ layer, params.layer = some layer → editor.Shows session .byLayer layer id

section

variable (views : editor.host.Grants .viewEntity) (wf : session.scene.WellFormed) {id : EntityId}
variable {entity : Entity} (record : session.scene.entity? id = some entity)
include views wf record

theorem shows_name {name : String} (given : Text.trim name ≠ "")
    (named : entity.name = Text.trim name) : editor.Shows session .byName name id := by
  obtain ⟨found, same, iff⟩ :=
    shown_of_run views wf.toForest .byName (by decide) given rfl record
  exact ⟨found, same, iff.mpr (.byName named)⟩

/-- A tag is searched for without the blanks around it. -/
theorem shown_tag {tag : String} (given : Text.trim tag ≠ "") (tagged : entity.tag = tag) :
    ∃ found, editor.shown session .byTag tag = .ok found ∧ (id ∈ found ↔ Text.trim tag = tag) := by
  obtain ⟨found, same, iff⟩ := shown_of_run views wf.toForest .byTag (by decide) given rfl record
  refine ⟨found, same, iff.trans ⟨fun meets => ?_, fun bare => .byTag (tagged.trans bare.symm)⟩⟩
  cases meets with
  | byTag same => exact same.symm.trans tagged

theorem shows_layer {layer : String} (given : Text.trim layer ≠ "")
    (named : Host.layer session.scene (Text.trim layer) = .ok entity.layer) :
    editor.Shows session .byLayer layer id := by
  obtain ⟨found, same, iff⟩ := shown_of_run views wf.toForest .byLayer (by decide) given
    (Host.run_byLayer named none _) record
  exact ⟨found, same, iff.mpr (.byLayer (Host.layer_eq_ok_iff.mp named))⟩

end

/-- The layer of a new entity is the one that its text names. -/
theorem Draft.Fits.layer_entity {scene : Scene} {params : Create} {draft : Draft}
    (fits : draft.Fits editor scene params) {layer : String} (given : params.layer = some layer)
    (capabilities : List Capability) : Host.layer scene (Text.trim layer) =
      .ok (draft.entity scene params capabilities).layer := by
  have named := fits.layer
  rw [given, Option.mapM_some] at named
  obtain ⟨index, named, same⟩ := map_eq_ok_iff.mp named
  rw [named, Draft.entity, ← same, Option.getD_some]

/-- In every reachable scene, an entity that is created on a plain host is found among all entities
by the name that was given for it, and by the layer that was given for it unless its text is blank,
which is no search term but may name a layer. By the tag that was given for it, if it is not blank,
it is found if and only if there are no blanks around the tag. -/
theorem created_found_iff (reached : session.scene.Reachable) (plain : editor.host.refusals = [])
    {params : Create} {report : EntityReport} {after : Session}
    (ran : (editor.create params).run session = (.ok report, after)) :
    ∃ id, report.entities.map EntitySummary.id = [id] ∧
      editor.Shows after .byName params.name id ∧
      (∀ tag, params.tag = some tag → Text.trim tag ≠ "" →
        ∃ found, editor.shown after .byTag tag = .ok found ∧
          (id ∈ found ↔ Text.trim tag = tag)) ∧
      (∀ layer, params.layer = some layer →
        (Text.trim layer ≠ "" → editor.Shows after .byLayer layer id) ∧
        (Text.trim layer = "" → (session.scene.layer? "").isSome = true ∧
          editor.shown after .byLayer layer = .error { error := .missing "search term" })) ∧
      (editor.FoundAgain params after id ↔
        (∀ tag, params.tag = some tag → Text.trim tag ≠ "" → Text.trim tag = tag) ∧
        ∀ layer, params.layer = some layer → Text.trim layer ≠ "") := by
  have views := Host.grants_of_plain plain .viewEntity
  obtain ⟨draft, capabilities, -, fits, scene, -, one, -⟩ :=
    create_outcome (Host.grants_of_plain plain) reached.wellFormed ran
  have wf : after.scene.WellFormed :=
    ((editor.create_keeps Scene.wellFormed_stable params) session reached.wellFormed).ok ran
  have record : after.scene.entity? ⟨session.scene.nextEntity⟩ =
      some (draft.entity session.scene params capabilities) :=
    scene ▸ entity?_plus _ reached.wellFormed.nextEntity_not_mem
  have byName := shows_name views wf record (fits.name ▸ fits.named) fits.name
  have byTag : ∀ tag, params.tag = some tag → Text.trim tag ≠ "" →
      ∃ found, editor.shown after .byTag tag = .ok found ∧
        (⟨session.scene.nextEntity⟩ ∈ found ↔ Text.trim tag = tag) := by
    intro tag given some
    exact shown_tag views wf record some (by rw [Draft.entity, given, Option.getD_some])
  have byLayer : ∀ layer, params.layer = some layer → Text.trim layer ≠ "" →
      editor.Shows after .byLayer layer ⟨session.scene.nextEntity⟩ := by
    intro layer given some
    have named := fits.layer_entity given capabilities
    rw [← Host.layer_plus, ← scene] at named
    exact shows_layer views wf record some named
  have blank : ∀ layer, Text.trim layer = "" →
      editor.shown after .byLayer layer = .error { error := .missing "search term" } := by
    intro layer blank
    rw [shown_eq views, Host.find_whole, if_pos blank]
  refine ⟨_, one, byName, byTag, fun layer given => ⟨byLayer layer given, fun empty => ?_⟩, ?_, ?_⟩
  · have named := fits.layer_entity given capabilities
    rw [empty] at named
    exact ⟨Option.isSome_iff_exists.mpr ⟨_, Host.layer_eq_ok_iff.mp named⟩, blank layer empty⟩
  · intro again
    refine ⟨fun tag given some => ?_, fun layer given empty => ?_⟩
    · obtain ⟨found, same, member⟩ := again.byTag tag given some
      obtain ⟨found', same', iff⟩ := byTag tag given some
      obtain rfl := Except.ok.inj (same.symm.trans same')
      exact iff.mp member
    · obtain ⟨found, same, -⟩ := again.byLayer layer given
      cases same.symm.trans (blank layer empty)
  · rintro ⟨bare, some⟩
    refine ⟨byName, fun tag given visible => ?_, fun layer given => ?_⟩
    · obtain ⟨found, same, iff⟩ := byTag tag given visible
      exact ⟨found, same, iff.mpr (bare tag given visible)⟩
    · exact byLayer layer given (some layer given)

/-- A scene with one layer. -/
def waterSession : Session := { scene := { layers := [("Water", 4)] } }

theorem waterSession_reachable : waterSession.scene.Reachable := .fresh [("Water", 4)] none

/-- A lamp on the layer, with a tag. -/
def taggedLamp (tag : String) : Create :=
  ⟨" Lamp ", none, some tag, some " Water", some false, ⟨none, none, none⟩, []⟩

/-- A lamp that is tagged without blanks is found in all three ways. -/
theorem created_found_iff_of_enemy :
    let editor : Editor := {}
    let created := (editor.create (taggedLamp "Enemy")).run waterSession
    ∃ id, created.1.map (fun report => report.entities.map EntitySummary.id) = .ok [id] ∧
      editor.FoundAgain (taggedLamp "Enemy") created.2 id := by
  intro editor created
  have succeeds : created.1.isOk = true := by decide +kernel
  rcases ran : created with ⟨error | report, after⟩
  · rw [ran] at succeeds
    cases succeeds
  obtain ⟨id, one, -, -, -, again⟩ :=
    created_found_iff waterSession_reachable (show editor.host.refusals = [] from rfl) ran
  refine ⟨id, congrArg Except.ok one, again.mpr ⟨?_, ?_⟩⟩
  · rintro _ ⟨⟩ -
    decide +kernel
  · rintro _ ⟨⟩
    decide +kernel

/-- A lamp is not found by the tag that was given for it if there are blanks around the tag. -/
theorem created_not_found :
    let editor : Editor := {}
    let created := (editor.create (taggedLamp " Enemy ")).run waterSession
    waterSession.scene.Reachable ∧ created.1.isOk = true ∧
      editor.shown created.2 .byName " Lamp " = .ok [⟨1⟩] ∧
      editor.shown created.2 .byTag " Enemy " = .ok [] ∧
      ¬ ∀ (editor : Editor) (session after : Session) (params : Create) (report : EntityReport)
        (id : EntityId), editor.host.refusals = [] → session.scene.Reachable →
        (editor.create params).run session = (.ok report, after) →
        report.entities.map EntitySummary.id = [id] → editor.FoundAgain params after id := by
  intro editor created
  have made : created.1.map (fun report => report.entities.map EntitySummary.id) = .ok [⟨1⟩] := by
    decide +kernel
  have byTag : editor.shown created.2 .byTag " Enemy " = .ok [] := by decide +kernel
  refine ⟨waterSession_reachable, by decide +kernel, by decide +kernel, byTag, fun claimed => ?_⟩
  rcases ran : created with ⟨error | report, after⟩
  · rw [ran] at made
    cases made
  rw [ran] at made byTag
  have again := claimed editor waterSession after _ report ⟨1⟩ rfl waterSession_reachable ran
    (Except.ok.inj made)
  obtain ⟨found, same, member⟩ := again.byTag " Enemy " rfl (by decide +kernel)
  obtain rfl : [] = found := Except.ok.inj (byTag.symm.trans same)
  cases member

end Editor
end SceneEdit
