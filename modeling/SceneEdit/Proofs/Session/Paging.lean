import SceneEdit.Proofs.Query.Search
import SceneEdit.Proofs.Session.Logic
import SceneEdit.Proofs.Types.Identity
import SceneEdit.Session.Inspect

/-!
# Reading capabilities page by page

Each page is a request of its own, and each request searches for its target again. A search changes
nothing but the types that are remembered, and made again it finds the same (`Host.find_again`). So
all pages are about one entity, whose capabilities stay as they are, and what is left to show is a
matter of counting: a page that is not the last one is full, hence not empty, and the next page
starts where it stops (`capabilityPage_more`). The reading is an induction on how many capabilities
are still to be shown (`exists_pages`).
-/

namespace SceneEdit

/-! ### Searching again -/

namespace Host

variable {host : Host} {scene : Scene} {cache : TypeCache}

theorem run_again {strategy : Strategy} {term : String} {scope : Option EntityId}
    {pool : List EntityId} {found : List EntityId × TypeCache}
    (ran : (host.run scene cache strategy term scope pool).result = .ok found) :
    (host.run scene found.2 strategy term scope pool).result = .ok found := by
  cases strategy with
  | byId =>
      unfold run at ran ⊢
      dsimp only at ran ⊢
      split at ran
      · cases ran
        rfl
      · cases ran
  | byLayer =>
      obtain ⟨index, named, picked⟩ := bind_eq_ok_iff.mp ((Traced.result_bind _ _).symm.trans ran)
      cases picked
      refine (Traced.result_bind _ _).trans (bind_eq_ok_iff.mpr ⟨index, named, rfl⟩)
  | byComponent =>
      obtain ⟨answer, resolved, picked⟩ :=
        bind_eq_ok_iff.mp ((Traced.result_bind _ _).symm.trans ran)
      cases picked
      exact (Traced.result_bind _ _).trans
        (bind_eq_ok_iff.mpr ⟨answer, TypeCache.resolve_again resolved, rfl⟩)
  | byName | byTag | byPath | byIdOrNameOrPath =>
      cases ran
      rfl

/-- A search that is made again, with the types that it has remembered, finds the same. -/
theorem find_again {query : Query} {found : List EntityId × TypeCache}
    (outcome : (host.find scene cache query).result = .ok found) :
    (host.find scene found.2 query).result = .ok found := by
  rw [find] at outcome ⊢
  dsimp only at outcome ⊢
  split at outcome
  · cases outcome
  · rename_i given
    rw [if_neg given]
    rw [Traced.result_bind] at outcome ⊢
    obtain ⟨scope, resolved, rest⟩ := bind_eq_ok_iff.mp outcome
    refine bind_eq_ok_iff.mpr ⟨scope, resolved, ?_⟩
    rw [Traced.result_bind] at rest ⊢
    obtain ⟨picked, ran, told⟩ := bind_eq_ok_iff.mp rest
    cases told
    exact bind_eq_ok_iff.mpr ⟨picked, run_again ran, rfl⟩

end Host

/-- Nothing told leaves the log as it was. -/
theorem Session.log_nil (session : Session) : session.log [] = session := by
  rw [Session.log, List.append_nil]

namespace Editor

open Edit

variable {editor : Editor} {session : Session} {query : Query} {id : EntityId}

theorem firstTarget_iff {done : EntityId → Session → Prop} {failed : Report → Session → Prop} :
    WP (editor.firstTarget query) done failed session ↔
      let searched := editor.host.find session.scene session.types query
      match searched.result with
      | .ok found =>
        let after := { session.log searched.events with types := found.2 }
        match found.1.head? with
        | some id => done id after
        | none => failed { error := Host.noMatch query } after
      | .error report => failed report (session.log searched.events) := by
  rw [firstTarget, search, WP.bind_iff, WP.bind_iff, WP.get_iff, WP.bind_iff, WP.ofAttempt_iff]
  dsimp only
  cases (editor.host.find session.scene session.types query).result with
  | error report => rfl
  | ok found =>
      dsimp only
      rw [WP.bind_iff, WP.modify_iff, WP.pure_iff, WP.ofOption_iff]
      cases found.1.head? <;> rfl

/-- The entity that a query means as a target. -/
def Resolves (editor : Editor) (session : Session) (query : Query) (id : EntityId) : Prop :=
  ((editor.firstTarget query).run session).1 = .ok id

theorem resolves_iff :
    editor.Resolves session query id ↔
      ∃ found, (editor.host.find session.scene session.types query).result = .ok found ∧
        found.1.head? = some id := by
  have ends := firstTarget_iff.mp (WP.run (editor.firstTarget query) session)
  dsimp only at ends
  rw [Resolves]
  cases searched : (editor.host.find session.scene session.types query).result with
  | error report =>
      rw [searched] at ends
      simp [ends]
  | ok found =>
      rw [searched] at ends
      dsimp only at ends
      cases first : found.1.head? with
      | none =>
          rw [first] at ends
          simp [ends, first]
      | some other =>
          rw [first] at ends
          simp [ends, first]

/-- A target that is found is an entity of the scene. -/
theorem Resolves.entity (resolves : editor.Resolves session query id) :
    ∃ entity, session.scene.entity? id = some entity := by
  obtain ⟨found, searched, first⟩ := resolves_iff.mp resolves
  obtain ⟨-, known⟩ := editor.host.find_gives _ _ _ found searched
  exact Option.isSome_iff_exists.mp
    (Scene.entity?_isSome_iff.mpr (known (List.mem_of_mem_head? first)))

/-- Looking for a target leaves the scene as it was, and the target is found again. -/
theorem Resolves.firstTarget (resolves : editor.Resolves session query id) :
    WP (editor.firstTarget query)
      (fun target after => target = id ∧ after.scene = session.scene ∧
        editor.Resolves after query id)
      (fun _ _ => False) session := by
  obtain ⟨found, searched, first⟩ := resolves_iff.mp resolves
  rw [firstTarget_iff]
  dsimp only
  rw [searched]
  dsimp only
  rw [first]
  exact ⟨rfl, rfl, resolves_iff.mpr ⟨found, Host.find_again searched, first⟩⟩

end Editor

/-! ### One page -/

/-- How many capabilities a full page has. -/
def Config.fullPage (config : Config) : Option Nat → Nat
  | none => config.defaultPageSize
  | some size => min size config.maxPageSize

theorem Config.Valid.fullPage {config : Config} (valid : config.Valid) {given : Option Nat}
    (positive : given ≠ some 0) :
    0 < config.fullPage given ∧ config.fullPage given ≤ config.maxPageSize := by
  obtain ⟨some, within⟩ := valid
  cases given with
  | none => exact ⟨some, within⟩
  | some size =>
      have asked : size ≠ 0 := fun zero => positive (congrArg Option.some zero)
      simp only [Config.fullPage]
      omega

namespace Editor

open Edit

/-- What a request shows of a capability: its identity, the full name of its type, and the entries
of its state unless they are to be left out. -/
def viewOf (editor : Editor) (params : ReadCapabilities) (capability : Capability) :
    CapabilityView where
  id := capability.id
  type := capability.type.fullName
  properties :=
    if params.includeProperties.getD true then
      some (Value.tableEntries (params.includeHidden.getD editor.config.includeHidden)
        capability.state)
    else none

section

variable {entity : Entity} {id : EntityId} {cursor size : Nat}
variable {view : Capability → CapabilityView}

theorem length_capabilityPage :
    (capabilityPage entity id cursor size view).capabilities.length =
      min size (entity.capabilities.length - cursor) := by
  simp [capabilityPage]

/-- A page after which capabilities are left is full, and the next page starts where it stops. -/
theorem capabilityPage_more (left : cursor + size < entity.capabilities.length) :
    (capabilityPage entity id cursor size view).capabilities.length = size ∧
    (capabilityPage entity id cursor size view).nextCursor = some (cursor + size) := by
  have full : min size (entity.capabilities.length - cursor) = size := by omega
  constructor
  · rw [length_capabilityPage, full]
  · simp [capabilityPage, full, left]

/-- A page that reaches the end shows all that is left, and no page comes after it. -/
theorem capabilityPage_last (within : cursor ≤ entity.capabilities.length)
    (reaches : entity.capabilities.length ≤ cursor + size) :
    (capabilityPage entity id cursor size view).capabilities =
      (entity.capabilities.drop cursor).map view ∧
    (capabilityPage entity id cursor size view).nextCursor = none := by
  have rest : (entity.capabilities.drop cursor).length ≤ size := by
    rw [List.length_drop]
    omega
  constructor
  · rw [capabilityPage, List.take_of_length_le rest]
  · have stops : cursor + (entity.capabilities.length - cursor) = entity.capabilities.length := by
      omega
    simp [capabilityPage, List.take_of_length_le rest, stops]

end

theorem pageSize_iff {editor : Editor} {session : Session} {given : Option Nat}
    (positive : given ≠ some 0) {done : Nat → Session → Prop} {failed : Report → Session → Prop} :
    WP (editor.pageSize given) done failed session ↔
      done (editor.config.fullPage given) session := by
  cases given with
  | none => exact WP.pure_iff
  | some size =>
      cases size with
      | zero => exact absurd rfl positive
      | succ size => exact WP.pure_iff

section

variable {editor : Editor} {session : Session} {params : ReadCapabilities} {id : EntityId}
variable {entity : Entity}

/-- A request for a page fails if its cursor is past the end. Else it gives the page, and the next
request meets the same scene and the same target. -/
theorem readCapabilities_ends (positive : params.pageSize ≠ some 0)
    (shown : editor.host.refuses .viewEntity (some id) none = false)
    (resolves : editor.Resolves session params.target id)
    (record : session.scene.entity? id = some entity) :
    WP (editor.readCapabilities params)
      (fun page after => params.cursor ≤ entity.capabilities.length ∧
        page = capabilityPage entity id params.cursor (editor.config.fullPage params.pageSize)
          (editor.viewOf params) ∧
        after.scene = session.scene ∧ editor.Resolves after params.target id)
      (fun _ _ => entity.capabilities.length < params.cursor) session := by
  rw [readCapabilities, WP.bind_iff, pageSize_iff positive, WP.bind_iff]
  apply resolves.firstTarget.mono _ fun _ _ never => never.elim
  rintro target after ⟨rfl, scene, again⟩
  have host : editor.host.record after.scene target = .ok entity := by
    simp [Host.record, Host.entity?, shown, scene, record]
  rw [WP.bind_iff, WP.scene_iff, WP.bind_iff, WP.ofExcept_iff, host]
  dsimp only
  rw [Session.log_nil]
  split
  · rename_i past
    rw [WP.bind_iff, WP.fail_iff]
    exact past
  · rename_i within
    rw [WP.pure_iff]
    exact ⟨by omega, rfl, scene, again⟩

/-! ### Page after page -/

/-- The pages that are read from a cursor on, each request starting where the page before it
stops, until a page is the last one. -/
inductive Pages (editor : Editor) (params : ReadCapabilities) :
    Session → Nat → List CapabilityPage → Prop
  | last {session after : Session} {cursor : Nat} {page : CapabilityPage}
      (read : (editor.readCapabilities { params with cursor }).run session = (.ok page, after))
      (stop : page.nextCursor = none) : Pages editor params session cursor [page]
  | more {session after : Session} {cursor next : Nat} {page : CapabilityPage}
      {pages : List CapabilityPage}
      (read : (editor.readCapabilities { params with cursor }).run session = (.ok page, after))
      (step : page.nextCursor = some next) (rest : Pages editor params after next pages) :
      Pages editor params session cursor (page :: pages)

/-- There is one way to read on. -/
theorem Pages.unique {cursor : Nat} {pages others : List CapabilityPage}
    (reading : Pages editor params session cursor pages)
    (other : Pages editor params session cursor others) : pages = others := by
  induction reading generalizing others with
  | last read stop =>
      cases other with
      | last read' _ =>
          rw [read] at read'
          cases read'
          rfl
      | more read' step _ =>
          rw [read] at read'
          cases read'
          rw [stop] at step
          cases step
  | more read step rest ih =>
      cases other with
      | last read' stop =>
          rw [read] at read'
          cases read'
          rw [stop] at step
          cases step
      | more read' step' rest' =>
          rw [read] at read'
          cases read'
          rw [step] at step'
          cases step'
          rw [ih rest']

/-- Pages that show views in their order, all of them full except perhaps the last one. -/
structure Lists (views : List CapabilityView) (size largest : Nat)
    (pages : List CapabilityPage) : Prop where
  views : pages.flatMap CapabilityPage.capabilities = views
  full : ∀ page ∈ pages.dropLast, page.capabilities.length = size
  bounded : ∀ page ∈ pages, page.capabilities.length ≤ largest

theorem Lists.single {page : CapabilityPage} {size largest : Nat}
    (bounded : page.capabilities.length ≤ largest) :
    Lists page.capabilities size largest [page] where
  views := List.flatMap_singleton _ _
  full := by simp
  bounded := List.forall_mem_singleton.mpr bounded

theorem Lists.cons {page : CapabilityPage} {pages : List CapabilityPage}
    {views : List CapabilityView} {size largest : Nat} (rest : Lists views size largest pages)
    (full : page.capabilities.length = size) (bounded : size ≤ largest) :
    Lists (page.capabilities ++ views) size largest (page :: pages) where
  views := by rw [List.flatMap_cons, rest.views]
  full := by
    cases pages with
    | nil => simp
    | cons next more => exact List.forall_mem_cons.mpr ⟨full, rest.full⟩
  bounded := List.forall_mem_cons.mpr ⟨full ▸ bounded, rest.bounded⟩

/-- From any cursor within the list the reading ends, and shows all that is left. -/
theorem exists_pages (valid : editor.config.Valid) (positive : params.pageSize ≠ some 0)
    (shown : editor.host.refuses .viewEntity (some id) none = false)
    (resolves : editor.Resolves session params.target id)
    (record : session.scene.entity? id = some entity) {cursor : Nat}
    (within : cursor ≤ entity.capabilities.length) :
    ∃ pages, Pages editor params session cursor pages ∧
      Lists ((entity.capabilities.drop cursor).map (editor.viewOf params))
        (editor.config.fullPage params.pageSize) editor.config.maxPageSize pages := by
  obtain ⟨positive', bounded⟩ := valid.fullPage positive
  induction left : entity.capabilities.length - cursor using Nat.strong_induction_on
    generalizing session cursor with
  | _ count ih =>
      have ends := @readCapabilities_ends editor session { params with cursor } id entity
        positive shown resolves record
      obtain ⟨page, after, read, -, same, scene, again⟩ :=
        (ends.mono (fun _ _ given => given) fun _ _ past => absurd within past.not_ge).exists_ok
      by_cases more : cursor + editor.config.fullPage params.pageSize < entity.capabilities.length
      · obtain ⟨full, next⟩ := @capabilityPage_more entity id cursor _ (editor.viewOf params) more
        obtain ⟨pages, reading, lists⟩ :=
          ih (entity.capabilities.length - (cursor + editor.config.fullPage params.pageSize))
            (by omega) again (scene ▸ record) more.le rfl
        refine ⟨page :: pages, .more read (same ▸ next) reading, ?_⟩
        have split : (entity.capabilities.drop cursor).map (editor.viewOf params) =
            page.capabilities ++ (entity.capabilities.drop
              (cursor + editor.config.fullPage params.pageSize)).map (editor.viewOf params) := by
          rw [same, ← List.drop_drop]
          exact (congrArg _ (List.take_append_drop _ _).symm).trans List.map_append
        rw [split]
        exact lists.cons (same ▸ full) bounded
      · obtain ⟨all, stop⟩ :=
          @capabilityPage_last entity id cursor (editor.config.fullPage params.pageSize)
            (editor.viewOf params) within (by omega)
        have fits : page.capabilities.length ≤ editor.config.maxPageSize := by
          rw [same]
          exact length_capabilityPage.trans_le ((min_le_left _ _).trans bounded)
        refine ⟨[page], .last read (same ▸ stop), ?_⟩
        rw [← all]
        exact same ▸ Lists.single fits

/-- Whatever is asked for, the capabilities of a target are read page by page in one way, which
never fails and ends. The pages show every capability once, in the order of attachment, with its
identity, its type and what was asked for of its state; all but the last one are full, and none is
larger than the configuration allows. Just the cursors past the end are rejected. -/
theorem capabilities_paged (accepted : editor.config.validate = .ok editor.config)
    (positive : params.pageSize ≠ some 0)
    (shown : editor.host.refuses .viewEntity (some id) none = false)
    (resolves : editor.Resolves session params.target id) :
    ∃ entity, session.scene.entity? id = some entity ∧
      (∃ pages, (∀ others, Pages editor params session 0 others ↔ others = pages) ∧
        Lists (entity.capabilities.map (editor.viewOf params))
          (editor.config.fullPage params.pageSize) editor.config.maxPageSize pages) ∧
      ∀ cursor,
        (∃ report after, (editor.readCapabilities { params with cursor }).run session =
          (.error report, after)) ↔ entity.capabilities.length < cursor := by
  obtain ⟨entity, record⟩ := resolves.entity
  have valid := ((Config.validate_eq_ok_iff _ _).mp accepted).1
  refine ⟨entity, record, ?_, fun cursor => ?_⟩
  · obtain ⟨pages, reading, lists⟩ :=
      exists_pages valid positive shown resolves record (Nat.zero_le _)
    refine ⟨pages, fun others => ⟨fun other => other.unique reading, ?_⟩, lists⟩
    rintro rfl
    exact reading
  · have ends := @readCapabilities_ends editor session { params with cursor } id entity
      positive shown resolves record
    constructor
    · rintro ⟨report, after, failed⟩
      exact ends.error failed
    · intro past
      obtain ⟨report, after, failed, -⟩ :=
        (ends.mono (fun _ _ given => absurd past given.1.not_gt) fun _ _ _ => trivial).exists_error
      exact ⟨report, after, failed⟩

end

/-- A crate with four capabilities, each with its number and a hidden member. -/
def crateScene : Scene :=
  let capability (number : Int) (name : String) : Capability :=
    ⟨⟨number⟩, ⟨⟨name⟩, "Game", .capability⟩, ⟨⟨name⟩,
      [⟨"number", .property, .int, true, .int number⟩, ⟨"cache", .hidden, .int, true, .null⟩],
      none⟩⟩
  { entities := [⟨⟨1⟩, "Crate", "", 0, true, none,
      [capability 1 "Game.Box", capability 2 "Light", capability 3 "Sound",
        capability 4 "Fuse"]⟩] }

/-- The capabilities of the crate on pages of two, without the hidden members. -/
theorem capabilities_paged_crate :
    let editor : Editor := {}
    let request : ReadCapabilities :=
      ⟨⟨"Crate", .byName, none, false, false⟩, some 2, 0, none, some false⟩
    ∃ pages, Pages editor request { scene := crateScene } 0 pages ∧
      pages.flatMap CapabilityPage.capabilities =
        [⟨⟨1⟩, ⟨"Game.Box"⟩, some [("number", .int 1)]⟩,
          ⟨⟨2⟩, ⟨"Light"⟩, some [("number", .int 2)]⟩,
          ⟨⟨3⟩, ⟨"Sound"⟩, some [("number", .int 3)]⟩,
          ⟨⟨4⟩, ⟨"Fuse"⟩, some [("number", .int 4)]⟩] ∧
      ∀ page ∈ pages.dropLast, page.capabilities.length = 2 := by
  intro editor request
  obtain ⟨entity, record, ⟨pages, reading, lists⟩, -⟩ :=
    @capabilities_paged editor { scene := crateScene } request ⟨1⟩ (by decide) (by decide)
      (by decide) (by rw [Resolves]; decide +kernel)
  cases record
  refine ⟨pages, (reading pages).mpr rfl, ?_, lists.full⟩
  rw [lists.views]
  rfl

end Editor
end SceneEdit
