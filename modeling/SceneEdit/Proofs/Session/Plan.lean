import SceneEdit.Proofs.Session.AllOrNothing
import SceneEdit.Proofs.Session.Types

/-!
# Planning a modification

The first part of a modification, `Editor.prepare`, looks everything up and changes nothing. Of what
it finds: the targets are distinct entities, the capabilities to be detached are theirs, a new
parent does not lie below a target, and every capability that is to be written is there or will be
attached. The types to be written have distinct full names, since a session has one type for a full
name.
-/

namespace SceneEdit

namespace Edit

variable {α β : Type}

/-- Whatever an edit gives on a scene satisfies an assertion. -/
def Finds (scene : Scene) (x : Edit α) (fact : α → Prop) : Prop :=
  ∀ session, session.scene = scene → WP x (fun a _ => fact a) (fun _ _ => True) session

namespace Finds

variable {scene : Scene} {x : Edit α} {f : α → Edit β} {fact : α → Prop} {result : β → Prop}

theorem any (scene : Scene) (x : Edit α) : Finds scene x fun _ => True :=
  fun _ _ => WP.true x

theorem pure {a : α} (holds : fact a) : Finds scene (Pure.pure a) fact :=
  fun _ _ => WP.pure_iff.mpr holds

theorem and {other : α → Prop} (first : Finds scene x fact) (second : Finds scene x other) :
    Finds scene x fun a => fact a ∧ other a :=
  fun session same => ((first session same).and (second session same)).mono (fun _ _ h => h)
    fun _ _ _ => trivial

theorem bind (quiet : ∀ P, Keeps P x) (first : Finds scene x fact)
    (rest : ∀ a, fact a → Finds scene (f a) result) : Finds scene (x >>= f) result := by
  intro session same
  have kept := quiet (fun now _ => now = scene) session same
  rw [WP.bind_iff]
  refine (kept.and (first session same)).mono ?_ fun _ _ _ => trivial
  rintro a left ⟨leftScene, found⟩
  exact rest a found left leftScene

theorem ofScene {f : Scene → Except Report α} (given : ∀ a, f scene = .ok a → fact a) :
    Finds scene (Edit.scene >>= fun scene => .ofExcept (f scene)) fact := by
  rintro session rfl
  rw [WP.bind_iff, WP.scene_iff, WP.ofExcept_iff]
  cases answer : f session.scene with
  | error report => trivial
  | ok a => exact given a answer

theorem mapM {γ : Type} {items : List γ} {f : γ → Edit β} {each : γ → β → Prop}
    (quiet : ∀ item P, Keeps P (f item))
    (finds : ∀ item, Finds scene (f item) (each item)) :
    Finds scene (items.mapM f) (List.Forall₂ each items) := by
  induction items with
  | nil => exact pure .nil
  | cons item rest ih =>
      rw [List.mapM_cons]
      refine bind (quiet item) (finds item) fun b found => ?_
      exact bind (fun P => Keeps.mapM fun item => quiet item P) ih fun others found' =>
        pure (.cons found found')

theorem mapMOption {γ : Type} {item : Option γ} {f : γ → Edit β} {g : γ → Except Report β}
    (quiet : ∀ item P, Keeps P (f item))
    (finds : ∀ item, Finds scene (f item) fun b => g item = .ok b) :
    Finds scene (item.mapM f) fun result => item.mapM g = .ok result := by
  cases item with
  | none => exact pure rfl
  | some item =>
      rw [Option.mapM_some, Option.mapM_some, map_eq_pure_bind]
      refine bind (quiet item) (finds item) fun b found => pure ?_
      rw [found]
      rfl

theorem forM {γ : Type} {items : List γ} {f : γ → Edit PUnit} {each : γ → Prop}
    (quiet : ∀ item P, Keeps P (f item))
    (finds : ∀ item, Finds scene (f item) fun _ => each item) :
    Finds scene (items.forM f) fun _ => ∀ item ∈ items, each item := by
  induction items with
  | nil => exact pure (by simp)
  | cons item rest ih =>
      refine bind (quiet item) (finds item) fun _ here => ?_
      exact fun session same => (ih session same).mono
        (fun _ _ others => List.forall_mem_cons.mpr ⟨here, others⟩) fun _ _ h => h

theorem of_run {session : Session} {a : α} (finds : Finds scene x fact)
    (same : session.scene = scene) (found : (x.run session).1 = .ok a) : fact a := by
  cases ran : x.run session with
  | mk result after =>
      obtain rfl : result = .ok a := by rwa [ran] at found
      exact (finds session same).ok ran

end Finds
end Edit

/-- What an edit preserves holds where the next one starts. -/
theorem Edit.Preserves.before {α β : Type} {I : Session → Prop} {x : Edit α} {f : α → Edit β}
    {done : β → Session → Prop} {session : Session} (preserves : Preserves I x)
    (holds : I session) (rest : ∀ a left, I left → WP (f a) done (fun _ _ => True) left) :
    WP (x >>= f) done (fun _ _ => True) session :=
  WP.bind_iff.mpr ((preserves session holds).mono rest fun _ _ _ => trivial)

/-! ### Writes of distinct types -/

namespace Writes

/-- No full name is written twice. -/
def Distinct (writes : Writes) : Prop := (writes.map fun write => write.1.fullName).Nodup

theorem mem_add {writes : Writes} {type : Descriptor} {entries : Entries}
    {write : Descriptor × Entries} (member : write ∈ writes.add type entries) :
    write.1 = type ∨ write.1 ∈ writes.map Prod.fst := by
  induction writes with
  | nil => exact Or.inl (congrArg Prod.fst (List.mem_singleton.mp member))
  | cons first rest ih =>
      rw [add] at member
      split at member
      · rcases List.mem_cons.mp member with rfl | later
        · exact Or.inr List.mem_cons_self
        · exact Or.inr (List.mem_cons_of_mem _ (List.mem_map_of_mem later))
      · rcases List.mem_cons.mp member with rfl | later
        · exact Or.inr List.mem_cons_self
        · exact (ih later).imp_right (List.mem_cons_of_mem _)

/-- Adding to writes keeps them distinct if the full name of the type means the type. -/
theorem Distinct.add {writes : Writes} (distinct : writes.Distinct) {type : Descriptor}
    (entries : Entries)
    (one : ∀ known ∈ writes.map Prod.fst, known.fullName = type.fullName → known = type) :
    (writes.add type entries).Distinct := by
  induction writes with
  | nil => exact List.nodup_singleton _
  | cons first rest ih =>
      obtain ⟨new, distinct'⟩ := List.nodup_cons.mp distinct
      obtain ⟨here, others⟩ := List.forall_mem_cons.mp one
      rw [Writes.add]
      split
      · exact distinct
      · rename_i different
        refine List.nodup_cons.mpr ⟨fun listed => ?_, ih distinct' others⟩
        obtain ⟨write, member, same⟩ := List.mem_map.mp listed
        rcases mem_add member with rfl | old
        · exact different (here same.symm)
        · obtain ⟨known, inside, one⟩ := List.mem_map.mp old
          exact new (List.mem_map.mpr
            ⟨known, inside, (congrArg Descriptor.fullName one).trans same⟩)

end Writes

namespace Editor

open Edit

variable {editor : Editor} {session : Session}

/-- A session answers with types that it knows from then on. -/
theorem capabilityType_knows (coherent : session.types.Coherent) (name : String) :
    WP (editor.capabilityType name)
      (fun type left => left.types.Coherent ∧ left.types.Known .capability type ∧
        ∀ other, session.types.Known .capability other → left.types.Known .capability other)
      (fun _ _ => True) session := by
  rw [capabilityType, WP.bind_iff, WP.get_iff, WP.bind_iff, WP.ofAttempt_iff]
  cases answer : (session.types.resolve editor.host.env.catalog .capability name).result with
  | error report => trivial
  | ok found =>
      refine WP.bind_iff.mpr (WP.modify_iff.mpr (WP.pure_iff.mpr ?_))
      exact coherent.resolve answer

theorem plannedWrites_distinct {writes : Writes} (coherent : session.types.Coherent)
    (known : ∀ type ∈ writes.map Prod.fst, session.types.Known .capability type)
    (distinct : writes.Distinct) (properties : Entries) :
    WP (editor.plannedWrites writes properties) (fun result _ => result.Distinct)
      (fun _ _ => True) session := by
  induction properties generalizing writes session with
  | nil => exact WP.pure_iff.mpr distinct
  | cons entry rest ih =>
      obtain ⟨name, token⟩ := entry
      cases token with
      | obj entries =>
          rw [plannedWrites, WP.bind_iff]
          refine (capabilityType_knows coherent name).mono ?_ fun _ _ h => h
          rintro type left ⟨coherent', here, kept⟩
          have known' : ∀ other ∈ writes.map Prod.fst, left.types.Known .capability other :=
            fun other member => kept other (known other member)
          refine ih coherent' (fun other member => ?_)
            (distinct.add entries fun other member same =>
              (known' other member).eq_of_fullName here same)
          obtain ⟨write, inside, rfl⟩ := List.mem_map.mp member
          rcases Writes.mem_add inside with rfl | old
          · exact here
          · exact known' _ old
      | _ => exact WP.fail_iff.mpr trivial

/-! ### What is prepared -/

theorem map_fst_removals (targets : List EntityId)
    (byType : List (List (EntityId × CapabilityId))) :
    (removals targets byType).map Prod.fst = targets := by
  rw [removals, List.map_map]
  exact List.map_id _

/-- The types to be written have distinct full names. -/
theorem gather_distinct (coherent : session.types.Coherent) (params : Modify) :
    WP (editor.gather params) (fun gathered _ => gathered.writes.Distinct)
      (fun _ _ => True) session := by
  have stable := TypeCache.coherent_stable
  apply (editor.targets_keepsTypes stable _).before coherent
  intro targets left coherent
  apply (Preserves.mapMOption fun _ => editor.layer_keepsTypes _).before coherent
  intro layer left coherent
  apply (editor.newParent_keepsTypes _).before coherent
  intro parent left coherent
  apply (Preserves.mapM fun _ => editor.capabilityType_keepsTypes stable _).before coherent
  intro removed left coherent
  apply (editor.specTypes_keepsTypes stable _).before coherent
  intro added left coherent
  have placing : WP (editor.placementType params.placement)
      (fun type left => left.types.Coherent ∧
        ∀ known, type = some known → left.types.Known .capability known)
      (fun _ _ => True) left := by
    rw [placementType]
    split
    · exact WP.pure_iff.mpr ⟨coherent, by simp⟩
    · rw [WP.bind_iff]
      refine (capabilityType_knows coherent _).mono ?_ fun _ _ h => h
      rintro type left ⟨coherent, known, -⟩
      exact WP.pure_iff.mpr ⟨coherent, by simpa using known⟩
  refine WP.bind_iff.mpr (placing.mono ?_ fun _ _ h => h)
  rintro placed left ⟨coherent, known⟩
  refine WP.bind_iff.mpr (WP.mono (?_ : WP _ (fun result _ => result.Distinct) _ left)
    (fun writes _ distinct => WP.pure_iff.mpr distinct) fun _ _ h => h)
  cases placed with
  | none => exact plannedWrites_distinct coherent (by simp) (by simp [Writes.Distinct]) _
  | some type =>
      exact plannedWrites_distinct coherent (by simpa using known type rfl)
        (by simp [Writes.Distinct]) _

/-- A modification writes each type once. -/
theorem prepare_distinct (coherent : session.types.Coherent) (params : Modify) :
    WP (editor.prepare params) (fun prepared _ => prepared.plan.writes.Distinct)
      (fun _ _ => True) session := by
  refine WP.bind_iff.mpr ((gather_distinct coherent params).mono ?_ fun _ _ h => h)
  intro gathered left distinct
  -- What follows only looks things up.
  have looks : ∀ {α β : Type} (x : Edit α) {f : α → Edit β} {done : β → Session → Prop}
      {session : Session}, (∀ a left, WP (f a) done (fun _ _ => True) left) →
      WP (x >>= f) done (fun _ _ => True) session := fun x _ _ session rest =>
    WP.bind_iff.mpr ((WP.true x).mono (fun a left _ => rest a left) fun _ _ h => h)
  refine looks _ fun _ left => looks _ fun name left => looks _ fun byType left =>
    looks _ fun _ left => ?_
  exact WP.pure_iff.mpr distinct

/-- What was prepared fits a scene: the targets are distinct entities, the capabilities to detach
are those that are looked up for them, a new parent is an entity that does not lie below a target,
and what is to be written is there or will be attached. -/
structure Prepared.Fits (prepared : Prepared) (host : Host) (scene : Scene) : Prop where
  nonempty : prepared.targets ≠ []
  distinct : prepared.targets.Nodup
  known : prepared.targets ⊆ scene.entities.map Entity.id
  detachable : List.Forall₂ (fun type pairs =>
    host.capabilitiesOf scene type prepared.targets = .ok pairs) prepared.removed prepared.byType
  parent : ∀ parent, prepared.plan.parent = some (some parent) →
    parent ∈ scene.entities.map Entity.id ∧
      ∀ target ∈ prepared.targets, ¬ scene.Below parent target
  writable : ∀ write ∈ prepared.plan.writes, write.1 ∈ prepared.plan.added.map Prod.fst ∨
    ∀ target ∈ prepared.targets, ∃ capability, scene.Carries write.1 (target, capability)

variable {scene : Scene}

theorem targets_nonempty (query : Query) : Finds scene (editor.targets query) (· ≠ []) := by
  intro session _
  rw [targets, WP.bind_iff]
  refine (WP.true _).mono (fun found left _ => ?_) fun _ _ h => h
  split
  · exact WP.fail_iff.mpr trivial
  · rename_i some
    exact WP.pure_iff.mpr (by simpa using some)

theorem newParent_finds (scene : Scene) (change : ParentChange) :
    Finds scene (editor.newParent change) fun parent =>
      ∀ above, parent = some (some above) → above ∈ scene.entities.map Entity.id := by
  cases change with
  | keep => exact Finds.pure (by simp)
  | toRoot => exact Finds.pure (by simp)
  | under term =>
      have named : Finds scene (editor.reference term)
          fun above => above ∈ scene.entities.map Entity.id :=
        Finds.ofScene fun above answer => Host.mem_ids_of_resolveUnique answer
      refine Finds.bind (fun _ => editor.reference_keeps term) named fun above known => ?_
      exact Finds.pure (by simpa using known)

theorem checkParent_finds (wf : scene.WellFormed) (views : editor.host.Grants .viewEntity)
    (targets : List EntityId) (parent : NewParent) :
    Finds scene (editor.checkParent targets parent) fun _ =>
      ∀ above, parent = some (some above) → ∀ target ∈ targets, ¬ scene.Below above target := by
  rw [checkParent.eq_def]
  split
  · rename_i above
    rintro session rfl
    rw [WP.bind_iff, WP.scene_iff]
    split
    · exact WP.fail_iff.mpr trivial
    · rename_i none
      refine WP.pure_iff.mpr fun other same target member below => ?_
      obtain rfl := Option.some.inj (Option.some.inj same)
      exact List.find?_eq_none.mp none target member ((views.isWithin_iff wf.toForest).mpr below)
  · rename_i other
    exact Finds.pure fun above same => absurd same (other above)

theorem checkWritable_finds (wf : scene.WellFormed) (targets : List EntityId)
    (plan : ModifyPlan) :
    Finds scene (editor.checkWritable targets plan) fun _ =>
      ∀ write ∈ plan.writes, write.1 ∈ plan.added.map Prod.fst ∨
        ∀ target ∈ targets, ∃ capability, scene.Carries write.1 (target, capability) := by
  refine Finds.forM (fun write _ => ?_) fun write => ?_
  · exact Keeps.ite ((editor.capabilitiesOf_keeps _ targets).bind fun _ => Keeps.pure _)
      (Keeps.pure _)
  · dsimp only
    split
    · refine Finds.bind (fun _ => editor.capabilitiesOf_keeps _ targets)
        (capabilitiesOf_finds wf write.1 targets) fun pairs found => Finds.pure (Or.inr ?_)
      intro target member
      rw [← found.1] at member
      obtain ⟨pair, inside, rfl⟩ := List.mem_map.mp member
      exact ⟨pair.2, found.2 pair inside⟩
    · rename_i added
      simp only [Bool.not_eq_true', Bool.not_eq_false, List.any_eq_true, decide_eq_true_eq] at added
      obtain ⟨entry, inside, same⟩ := added
      exact Finds.pure (Or.inl (List.mem_map.mpr ⟨entry, inside, same⟩))

theorem gather_finds (params : Modify) :
    Finds scene (editor.gather params) fun gathered => gathered.targets ≠ [] ∧
      gathered.targets.Nodup ∧ gathered.targets ⊆ scene.entities.map Entity.id ∧
      ∀ above, gathered.parent = some (some above) → above ∈ scene.entities.map Entity.id := by
  apply Finds.bind (fun _ => editor.targets_keeps _)
    (Finds.and (targets_nonempty _) (targets_finds _ _))
  rintro targets ⟨nonempty, distinct, known⟩
  apply Finds.bind (fun _ => Keeps.mapMOption fun _ => editor.layer_keeps _) (Finds.any _ _)
  intro layer _
  apply Finds.bind (fun _ => editor.newParent_keeps _) (newParent_finds _ _)
  intro parent there
  apply Finds.bind (fun _ => Keeps.mapM fun _ => editor.capabilityType_keeps _) (Finds.any _ _)
  intro removed _
  apply Finds.bind (fun _ => editor.specTypes_keeps _) (Finds.any _ _)
  intro added _
  apply Finds.bind (fun _ => editor.placementType_keeps _) (Finds.any _ _)
  intro placed _
  apply Finds.bind (fun _ => editor.plannedWrites_keeps _ _) (Finds.any _ _)
  intro writes _
  exact Finds.pure ⟨nonempty, distinct, known, there⟩

/-- What is prepared fits the scene it is prepared on. -/
theorem prepare_fits (wf : scene.WellFormed) (views : editor.host.Grants .viewEntity)
    (params : Modify) :
    Finds scene (editor.prepare params) fun prepared => prepared.Fits editor.host scene := by
  apply Finds.bind (fun _ => editor.gather_keeps params) (gather_finds params)
  rintro gathered ⟨nonempty, distinct, known, there⟩
  apply Finds.bind (fun _ => editor.checkParent_keeps gathered.targets gathered.parent)
    (checkParent_finds wf views gathered.targets gathered.parent)
  intro _ outside
  apply Finds.bind (fun _ => editor.nonBlank_keeps _ _) (Finds.any _ _)
  intro name _
  apply Finds.bind
    (fun _ => Keeps.mapM fun type => editor.capabilitiesOf_keeps type gathered.targets)
    (Finds.mapM (fun type _ => editor.capabilitiesOf_keeps type gathered.targets)
      fun type => Finds.ofScene fun pairs answer => answer)
  intro byType detachable
  apply Finds.bind (fun _ => editor.checkWritable_keeps gathered.targets _)
    (checkWritable_finds wf gathered.targets _)
  intro _ writable
  exact Finds.pure ⟨nonempty, distinct, known, detachable, fun above same =>
    ⟨there above same, outside above same⟩, writable⟩

theorem lampSession_reachable : lampSession.scene.Reachable :=
  .step (.fresh _ (some lampTransform)) (.create "Lamp" none)

/-- A session on a scene with one entity that has a capability beside the transform. -/
def wornSession : Session where
  scene := lampSession.scene.after
    (.attach ⟨1⟩ ⟨⟨"Health"⟩, "Game", .capability⟩ (.empty ⟨"Health"⟩))

theorem wornSession_reachable : wornSession.scene.Reachable :=
  lampSession_reachable.step (.attach ⟨1⟩ ⟨⟨"Health"⟩, "Game", .capability⟩ (.empty ⟨"Health"⟩))

end Editor
end SceneEdit
