import SceneEdit.Proofs.Path.Sequence
import SceneEdit.Proofs.Session.Batch
import SceneEdit.Proofs.Session.Modify

/-!
# Building an entity

The host creates an entity with a transform if the scene has one; then its record is changed, and
properties are written into its capabilities. While that is done the scene is the old one with one
entity at its end (`Scene.plus`). A capability that the entity has already is written into and not
attached again, whether it is the transform or was attached for the same request. So the
capabilities are of distinct types, in the order in which these are named first, and each of them
holds all properties that were given for its type (`Assembly`).
-/

namespace SceneEdit

/-! ### A scene with one entity more -/

namespace Scene

variable {scene : Scene} {entity : Entity}

/-- The scene with a new entity at the end of its table. -/
def plus (scene : Scene) (entity : Entity) : Scene :=
  { scene with
    entities := scene.entities ++ [entity]
    nextEntity := scene.nextEntity + 1
    nextCapability := scene.nextCapability + entity.capabilities.length }

/-- The types of which an entity has a capability when it is created. -/
def birthTypes (scene : Scene) : List TypeName :=
  scene.birthCapabilities.map fun capability => capability.type.fullName

/-- An identity that the scene has not given out yet. -/
theorem WellFormed.nextEntity_not_mem (wf : scene.WellFormed) :
    (⟨scene.nextEntity⟩ : EntityId) ∉ scene.entities.map Entity.id :=
  fun member => Int.lt_irrefl _ (wf.lt_of_mem_ids member)

section

variable (entity) (new : entity.id ∉ scene.entities.map Entity.id)
include new

theorem entity?_plus : (scene.plus entity).entity? entity.id = some entity := by
  rw [plus, entity?, List.find?_append, List.find?_eq_none.mpr, Option.none_or,
    List.find?_cons_of_pos (by simp)]
  intro other member same
  exact new (List.mem_map.mpr ⟨other, member, of_decide_eq_true same⟩)

theorem firstOf?_plus {fullName : TypeName} :
    (scene.plus entity).firstOf? fullName entity.id = entity.capability? fullName := by
  rw [firstOf?, entity?_plus entity new]
  rfl

theorem map_change_plus (change : Entity → Entity) :
    ((scene.plus entity).modify entity.id change).entities = scene.entities ++ [change entity] := by
  have others : scene.entities.map
      (fun other => if other.id = entity.id then change other else other) = scene.entities := by
    refine (List.map_congr_left fun other member => if_neg ?_).trans (List.map_id _)
    exact fun same => new (List.mem_map.mpr ⟨other, member, same⟩)
  rw [modify, plus, List.map_append, others, List.map_singleton, if_pos rfl]

theorem modify_plus {change : Entity → Entity}
    (count : (change entity).capabilities.length = entity.capabilities.length) :
    (scene.plus entity).modify entity.id change = scene.plus (change entity) := by
  calc (scene.plus entity).modify entity.id change
    _ = { scene.plus entity with entities := scene.entities ++ [change entity] } :=
      congrArg (fun entities => { scene.plus entity with entities })
        (map_change_plus entity new change)
    _ = scene.plus (change entity) := by rw [plus, plus, count]

theorem attach_plus {type : Descriptor} {state : Object} {capability : CapabilityId}
    {changed : Scene} (done : (scene.plus entity).attach entity.id type state =
      .ok (capability, changed)) :
    changed = scene.plus (entity.plus ⟨capability, type, state⟩) := by
  obtain ⟨-, -, rfl, rfl⟩ := attach_eq_ok_iff.mp done
  let made : Capability := ⟨⟨(scene.plus entity).nextCapability⟩, type, state⟩
  have count : (scene.plus entity).nextCapability + 1 =
      scene.nextCapability + ((entity.plus made).capabilities.length : Int) := by
    rw [Entity.plus_capabilities, List.length_append, List.length_singleton, Int.natCast_add,
      ← Int.add_assoc]
    rfl
  calc { (scene.plus entity).modify entity.id (fun entity => entity.plus made) with
        nextCapability := (scene.plus entity).nextCapability + 1 }
    _ = { scene.plus entity with
          entities := scene.entities ++ [entity.plus made]
          nextCapability := (scene.plus entity).nextCapability + 1 } :=
      congrArg (fun entities => { scene.plus entity with
        entities, nextCapability := (scene.plus entity).nextCapability + 1 })
        (map_change_plus entity new fun entity => entity.plus made)
    _ = scene.plus (entity.plus made) := by rw [count]; rfl

end

end Scene

/-! ### What the capabilities of the entity hold -/

namespace Writes

/-- The entries for a type, in the order in which they were given. -/
def entriesFor (writes : Writes) (fullName : TypeName) : Entries :=
  (writes.filter fun write => write.1.fullName = fullName).flatMap Prod.snd

theorem entriesFor_append (first second : Writes) (fullName : TypeName) :
    entriesFor (first ++ second) fullName =
      first.entriesFor fullName ++ second.entriesFor fullName := by
  rw [entriesFor, List.filter_append, List.flatMap_append]
  rfl

theorem entriesFor_same (write : Descriptor × Entries) :
    entriesFor [write] write.1.fullName = write.2 := by
  simp [entriesFor]

theorem entriesFor_eq_nil {writes : Writes} {fullName : TypeName}
    (none : fullName ∉ writes.map fun write => write.1.fullName) :
    writes.entriesFor fullName = [] := by
  rw [entriesFor, List.filter_eq_nil_iff.mpr, List.flatMap_nil]
  intro write member same
  exact none (List.mem_map.mpr ⟨write, member, of_decide_eq_true same⟩)

/-- A type that is written once has the entries that it was given then. -/
theorem Distinct.entriesFor {writes : Writes} (distinct : writes.Distinct)
    {write : Descriptor × Entries} (member : write ∈ writes) :
    writes.entriesFor write.1.fullName = write.2 := by
  obtain ⟨before, after, rfl⟩ := List.append_of_mem member
  rw [Distinct, List.map_append, List.map_cons] at distinct
  obtain ⟨-, here, apart⟩ := List.nodup_append.mp distinct
  have first : Writes.entriesFor before write.1.fullName = [] :=
    entriesFor_eq_nil fun listed => apart _ listed _ List.mem_cons_self rfl
  have last : Writes.entriesFor after write.1.fullName = [] :=
    entriesFor_eq_nil (List.nodup_cons.mp here).1
  rw [entriesFor_append, ← List.singleton_append, entriesFor_append, entriesFor_same, first, last,
    List.nil_append, List.append_nil]

theorem entriesFor_nothing (type : Descriptor) (fullName : TypeName) :
    entriesFor [(type, [])] fullName = [] := by
  refine List.flatMap_eq_nil_iff.mpr fun write member => ?_
  rw [List.mem_singleton.mp (List.mem_of_mem_filter member)]

/-- The fields that are reported for a write. -/
def fields (write : Descriptor × Entries) : List String :=
  write.2.keys.map fun field => s!"{write.1.short}.{field}"

end Writes

namespace Editor

open Edit Scene

variable {editor : Editor} {base : Scene} {session : Session} {record : Entity}
variable {type : Descriptor} {entries : Entries} {writes : Writes}
variable {capabilities : List Capability}

theorem nodup_birthTypes (scene : Scene) : scene.birthTypes.Nodup := by
  rw [birthTypes, birthCapabilities]
  split
  · exact List.nodup_singleton _
  · exact List.nodup_nil

theorem find?_birthCapabilities {scene : Scene} {birth : Capability}
    (member : birth ∈ scene.birthCapabilities) :
    scene.birthCapabilities.find? (fun capability => capability.type.fullName =
      birth.type.fullName) = some birth := by
  rw [birthCapabilities] at member ⊢
  split at member
  · obtain rfl := List.mem_singleton.mp member
    exact List.find?_cons_of_pos (by simp)
  · cases member

/-- The state that a capability of a new entity starts from: the one that the entity is created with
if it is created with a capability of the type, else the default state of the type. -/
def startOf? (editor : Editor) (scene : Scene) (fullName : TypeName) : Option Object :=
  match scene.birthCapabilities.find? fun capability => capability.type.fullName = fullName with
  | some birth => some birth.state
  | none => editor.host.env.catalog.instantiate? fullName

theorem startOf?_of_not_mem {fullName : TypeName} (other : fullName ∉ base.birthTypes) :
    editor.startOf? base fullName = editor.host.env.catalog.instantiate? fullName := by
  have none : base.birthCapabilities.find? (fun capability =>
      capability.type.fullName = fullName) = none :=
    List.find?_eq_none.mpr fun birth inside same =>
      other (List.mem_map.mpr ⟨birth, inside, of_decide_eq_true same⟩)
  rw [startOf?, none]

/-- The write of a placement, if there is something to place. -/
def placed (editor : Editor) (placement : Placement) (transform : Option Descriptor) : Writes :=
  transform.toList.map fun type => (type, placement.entries editor.config.transform)

/-- The capabilities of a new entity for which properties were given: those that it was created
with, then one for every other type in the order in which the types are named first; each of them in
the state to which all properties that were given for its type lead. -/
structure Assembly (editor : Editor) (scene : Scene) (writes : Writes)
    (capabilities : List Capability) : Prop where
  names : capabilities.map (fun capability => capability.type.fullName) =
    (scene.birthTypes ++ writes.map fun write => write.1.fullName).eraseDups
  born : (scene.birthCapabilities.map fun capability => (capability.id, capability.type)) <+:
    capabilities.map fun capability => (capability.id, capability.type)
  types : ∀ capability ∈ capabilities, capability.type ∈
    scene.birthCapabilities.map Capability.type ++ writes.map Prod.fst
  states : ∀ capability ∈ capabilities, ∃ start,
    editor.startOf? scene capability.type.fullName = some start ∧
    editor.access.afterAll start (writes.entriesFor capability.type.fullName) =
      .ok capability.state

namespace Assembly

theorem birth (editor : Editor) (scene : Scene) :
    editor.Assembly scene [] scene.birthCapabilities where
  names := by
    rw [List.map_nil, List.append_nil]
    exact (eraseDups_eq_self (nodup_birthTypes scene)).symm
  born := List.prefix_rfl
  types capability member := List.mem_append_left _ (List.mem_map_of_mem member)
  states capability member := by
    refine ⟨capability.state, ?_, rfl⟩
    rw [startOf?, find?_birthCapabilities member]

theorem mem_names_iff (assembly : editor.Assembly base writes capabilities) {fullName : TypeName} :
    fullName ∈ capabilities.map (fun capability => capability.type.fullName) ↔
      fullName ∈ base.birthTypes ∨ fullName ∈ writes.map fun write => write.1.fullName := by
  rw [assembly.names, List.mem_eraseDups, List.mem_append]

theorem eq_of_fullName (assembly : editor.Assembly base writes capabilities)
    {first second : Capability} (inside : first ∈ capabilities) (inside' : second ∈ capabilities)
    (same : first.type.fullName = second.type.fullName) : first = second := by
  have distinct := nodup_eraseDups
    (base.birthTypes ++ writes.map fun write => write.1.fullName)
  rw [← assembly.names] at distinct
  exact List.inj_on_of_nodup_map distinct inside inside' same

/-- Properties are written into a capability that is there. -/
theorem write (assembly : editor.Assembly base writes capabilities)
    (distinct : (capabilities.map Capability.id).Nodup) {first : Capability}
    (member : first ∈ capabilities) (named : first.type.fullName = type.fullName) {state : Object}
    (done : editor.access.afterAll first.state entries = .ok state) :
    editor.Assembly base (writes ++ [(type, entries)]) (capabilities.map fun capability =>
      if capability.id = first.id then { capability with state } else capability) := by
  have same : ∀ capability : Capability,
      let changed := if capability.id = first.id then { capability with state } else capability
      (changed.id, changed.type) = (capability.id, capability.type) := by
    intro capability changed
    dsimp only [changed]
    split <;> rfl
  have types : ∀ capability : Capability,
      (if capability.id = first.id then { capability with state } else capability).type =
        capability.type := fun capability => congrArg Prod.snd (same capability)
  constructor
  · have known : type.fullName ∈ base.birthTypes ++
        writes.map fun write => write.1.fullName := by
      rw [← List.mem_eraseDups, ← assembly.names, ← named]
      exact List.mem_map_of_mem member
    rw [List.map_map, List.map_append, ← List.append_assoc, List.map_singleton,
      eraseDups_concat_of_mem known, ← assembly.names]
    exact List.map_congr_left fun capability _ => congrArg Descriptor.fullName (types capability)
  · rw [List.map_map]
    obtain ⟨rest, split⟩ := assembly.born
    exact ⟨rest, split.trans (List.map_congr_left fun capability _ => same capability).symm⟩
  · refine List.forall_mem_map.mpr fun capability inside => ?_
    rw [types, List.map_append, ← List.append_assoc]
    exact List.mem_append_left _ (assembly.types capability inside)
  · refine List.forall_mem_map.mpr fun capability inside => ?_
    obtain ⟨start, starts, grown⟩ := assembly.states capability inside
    rw [types]
    refine ⟨start, starts, ?_⟩
    rw [Writes.entriesFor_append]
    by_cases same : capability.id = first.id
    · obtain rfl := List.inj_on_of_nodup_map distinct inside member same
      rw [if_pos rfl, named, Writes.entriesFor_same (type, entries)]
      exact Access.afterAll_append_eq_ok_iff.mpr ⟨_, named ▸ grown, done⟩
    · -- Two capabilities of one type are the same one, so the entries do not concern this one.
      have other : capability.type.fullName ≠ type.fullName := fun same' =>
        same (congrArg Capability.id (assembly.eq_of_fullName inside member
          (same'.trans named.symm)))
      have none : Writes.entriesFor [(type, entries)] capability.type.fullName = [] :=
        Writes.entriesFor_eq_nil (by simpa using other)
      rw [if_neg same, none, List.append_nil]
      exact grown

/-- A capability of another type is attached in its default state. -/
theorem attach (assembly : editor.Assembly base writes capabilities)
    (other : type.fullName ∉ capabilities.map fun capability => capability.type.fullName)
    (id : CapabilityId) {state : Object}
    (default : editor.host.env.catalog.instantiate? type.fullName = some state) :
    editor.Assembly base (writes ++ [(type, [])]) (capabilities ++ [⟨id, type, state⟩]) := by
  obtain ⟨notBirth, notGiven⟩ := not_or.mp (mt assembly.mem_names_iff.mpr other)
  constructor
  · have new : type.fullName ∉ base.birthTypes ++
        writes.map fun write => write.1.fullName := by
      rw [← List.mem_eraseDups, ← assembly.names]
      exact other
    rw [List.map_append, List.map_append, ← List.append_assoc, List.map_singleton,
      List.map_singleton, eraseDups_concat_of_not_mem new, assembly.names]
  · rw [List.map_append]
    exact assembly.born.trans (List.prefix_append _ _)
  · rw [List.map_append, ← List.append_assoc]
    refine List.forall_mem_append.mpr
      ⟨fun capability inside => ?_, List.forall_mem_singleton.mpr ?_⟩
    · exact List.mem_append_left _ (assembly.types capability inside)
    · exact List.mem_append_right _ (List.mem_singleton_self _)
  · refine List.forall_mem_append.mpr
      ⟨fun capability inside => ?_, List.forall_mem_singleton.mpr ?_⟩
    · rw [Writes.entriesFor_append, Writes.entriesFor_nothing, List.append_nil]
      exact assembly.states capability inside
    · refine ⟨state, (startOf?_of_not_mem notBirth).trans default, ?_⟩
      · rw [Writes.entriesFor_append, Writes.entriesFor_eq_nil notGiven, Writes.entriesFor_nothing]
        rfl

/-- It makes no difference whether properties are given at once with a type. -/
theorem join (assembly : editor.Assembly base (writes ++ [(type, [])] ++ [(type, entries)])
    capabilities) : editor.Assembly base (writes ++ [(type, entries)]) capabilities := by
  obtain ⟨names, born, types, states⟩ := assembly
  refine ⟨?_, born, ?_, ?_⟩
  · simp only [List.map_append, List.map_singleton, ← List.append_assoc] at names ⊢
    rwa [eraseDups_concat_of_mem (by simp)] at names
  · simpa only [List.map_append, List.map_singleton, List.mem_append, List.mem_singleton, or_assoc,
      or_self] using types
  · intro capability member
    obtain ⟨start, starts, grown⟩ := states capability member
    refine ⟨start, starts, ?_⟩
    simp only [Writes.entriesFor_append, Writes.entriesFor_nothing, List.append_nil] at grown ⊢
    exact grown

end Assembly

/-! ### Building the entity -/

/-- The scene while a new entity is built: the entity stands at the end of the table, and properties
have been given for its capabilities. -/
def Underway (editor : Editor) (base : Scene) (record : Entity) (writes : Writes) (scene : Scene) :
    Prop :=
  scene.WellFormed ∧ ∃ capabilities, scene = base.plus { record with capabilities } ∧
    editor.Assembly base writes capabilities

section

variable (granted : ∀ request, editor.host.Grants request)
variable (new : record.id ∉ base.entities.map Entity.id)
include granted new

/-- Properties are written into the first capability of a type. -/
theorem writeAll_builds (writes : Writes)
    (underway : editor.Underway base record writes session.scene) {capability : CapabilityId}
    (has : (session.scene.firstOf? type.fullName record.id).map Capability.id = some capability) :
    WP (editor.writeAll record.id type capability entries)
      (fun _ left => editor.Underway base record (writes ++ [(type, entries)]) left.scene ∧
        left.notes = session.notes)
      (fun _ _ => True) session := by
  obtain ⟨wf, capabilities, same, assembly⟩ := underway
  obtain ⟨first, held, rfl⟩ := Option.map_eq_some_iff.mp has
  refine (writeAll_runs (granted _) entries (holds_of_firstOf? wf held rfl)).mono ?_
    fun _ _ _ => trivial
  rintro _ left ⟨written, scene, notes⟩
  have found : Entity.capability? { record with capabilities } type.fullName = some first := by
    rwa [same, firstOf?_plus { record with capabilities } new] at held
  have member := List.mem_of_find?_eq_some found
  have named : first.type.fullName = type.fullName := by simpa using List.find?_some found
  have distinct : (capabilities.map Capability.id).Nodup := by
    refine (List.nodup_flatMap.mp wf.capabilities_nodup).1 { record with capabilities } ?_
    rw [same]
    exact List.mem_append_right _ (List.mem_singleton_self _)
  have done := Access.afterAll_writeAll written
  refine ⟨⟨?_, _, ?_, assembly.write distinct member named done⟩, notes⟩
  · rw [scene]
    exact wf.edit record.id (.setState _ _)
  · rw [scene, same]
    exact modify_plus { record with capabilities } new (List.length_map _)

omit granted in
/-- A capability of another type is attached in its default state. -/
theorem Underway.attach {scene changed : Scene} {state : Object} {capability : CapabilityId}
    (underway : editor.Underway base record writes scene)
    (none : scene.firstOf? type.fullName record.id = none)
    (default : editor.host.env.catalog.instantiate? type.fullName = some state)
    (attached : scene.attach record.id type state = .ok (capability, changed)) :
    editor.Underway base record (writes ++ [(type, [])]) changed ∧
      (changed.firstOf? type.fullName record.id).map Capability.id = some capability := by
  obtain ⟨wf, capabilities, rfl, assembly⟩ := underway
  rw [firstOf?_plus { record with capabilities } new] at none
  have other : type.fullName ∉ capabilities.map fun capability => capability.type.fullName := by
    rintro listed
    obtain ⟨capability, member, named⟩ := List.mem_map.mp listed
    exact List.find?_eq_none.mp none capability member (decide_eq_true named)
  have table := attach_plus { record with capabilities } new attached
  refine ⟨⟨wf.attach attached, _, table, assembly.attach other capability default⟩, ?_⟩
  rw [Entity.capability?] at none
  have first : changed.firstOf? type.fullName record.id = some ⟨capability, type, state⟩ := by
    refine (table ▸ firstOf?_plus (Entity.plus { record with capabilities } _) new).trans ?_
    rw [Entity.capability?, Entity.plus_capabilities, List.find?_append, none, Option.none_or,
      List.find?_cons_of_pos (by simp)]
  rw [first, Option.map_some]

/-- A capability of another type is attached, and properties are written into it. -/
theorem attach_builds (underway : editor.Underway base record writes session.scene)
    (none : session.scene.firstOf? type.fullName record.id = none) :
    WP (editor.attach record.id type entries)
      (fun _ left => editor.Underway base record (writes ++ [(type, entries)]) left.scene ∧
        left.notes = session.notes)
      (fun _ _ => True) session := by
  rw [attach, WP.bind_iff, WP.ofOption_iff]
  cases default : editor.host.env.catalog.instantiate? type.fullName with
  | none => trivial
  | some state =>
      refine WP.bind_iff.mpr (WP.require_iff.mpr ?_)
      cases answer : (editor.attachRequest record.id type state session.scene).result with
      | error refusal => trivial
      | ok made =>
          have attached := (attachRequest_eq_ok_iff.mp answer).2
          obtain ⟨underway, first⟩ := underway.attach new none default attached
          dsimp only
          split
          · -- Attaching counts as a write of nothing to the type; the entries are written after it.
            rw [WP.bind_iff, WP.orUndo_iff]
            refine WP.mono (writeAll_builds granted new (writes ++ [(type, [])]) ?_ ?_) ?_ ?_
            · exact underway
            · exact first
            · rintro _ left ⟨⟨wf, _, scene, assembly⟩, notes⟩
              exact WP.pure_iff.mpr ⟨⟨wf, _, scene, assembly.join⟩, notes⟩
            · exact fun _ _ _ => WP.true _
          · rename_i empty
            obtain rfl : entries = [] := by simpa using empty
            exact WP.pure_iff.mpr ⟨underway, rfl⟩

/-- A capability of a type is written into if the entity has one, and attached else. -/
theorem equip_builds (underway : editor.Underway base record writes session.scene) :
    WP (editor.equip record.id type entries)
      (fun fields left => fields = Writes.fields (type, entries) ∧
        editor.Underway base record (writes ++ [(type, entries)]) left.scene ∧
        left.notes = session.notes)
      (fun _ _ => True) session := by
  have shown : ((editor.host.entity? session.scene record.id).bind fun entity =>
      entity.capability? type.fullName) = session.scene.firstOf? type.fullName record.id := by
    rw [(granted .viewEntity).entity?]
    rfl
  rw [equip, WP.bind_iff, WP.scene_iff, shown]
  cases has : session.scene.firstOf? type.fullName record.id with
  | some first =>
      refine WP.bind_iff.mpr (WP.mono (writeAll_builds granted new writes underway ?_) ?_ ?_)
      · rw [has, Option.map_some]
      · exact fun _ left built => WP.pure_iff.mpr ⟨rfl, built⟩
      · exact fun _ _ h => h
  | none =>
      refine WP.bind_iff.mpr ((attach_builds granted new underway has).mono ?_ fun _ _ h => h)
      exact fun _ left built => WP.pure_iff.mpr ⟨rfl, built⟩

/-- All wants of a request are seen to in turn. -/
theorem equipAll_builds (wants : Writes)
    (underway : editor.Underway base record writes session.scene) :
    WP (wants.mapM fun (type, properties) => editor.equip record.id type properties)
      (fun fields left => fields = wants.map Writes.fields ∧
        editor.Underway base record (writes ++ wants) left.scene ∧ left.notes = session.notes)
      (fun _ _ => True) session := by
  induction wants generalizing session writes with
  | nil =>
      refine WP.pure_iff.mpr ⟨rfl, ?_, rfl⟩
      rwa [List.append_nil]
  | cons want rest ih =>
      rw [List.mapM_cons, WP.bind_iff]
      refine (equip_builds granted new underway).mono ?_ fun _ _ h => h
      rintro _ left ⟨rfl, underway, notes⟩
      rw [WP.bind_iff, List.append_cons]
      refine (ih underway).mono ?_ fun _ _ h => h
      rintro _ after ⟨rfl, underway, notes'⟩
      exact WP.pure_iff.mpr ⟨rfl, underway, notes'.trans notes⟩

/-- A placement is written into a capability that the entity was created with. -/
theorem place_builds (placement : Placement) (transform : Option Descriptor)
    (underway : editor.Underway base record [] session.scene) :
    let placed := editor.placed placement transform
    WP (editor.place record.id placement transform)
      (fun fields left => fields = placed.flatMap (fun write => write.2.keys) ∧
        (∀ write ∈ placed, write.1.fullName ∈ base.birthTypes) ∧
        editor.Underway base record placed left.scene ∧ left.notes = session.notes)
      (fun _ _ => True) session := by
  cases transform with
  | none => exact WP.pure_iff.mpr ⟨rfl, by simp [placed], underway, rfl⟩
  | some type =>
      rw [place, capabilityOf, WP.bind_iff, WP.bind_iff, WP.scene_iff, WP.ofExcept_iff]
      cases found : editor.host.capabilityOf session.scene type record.id with
      | error report => trivial
      | ok first =>
          have has := Host.firstOf?_of_capabilityOf found
          refine WP.bind_iff.mpr (WP.mono (writeAll_builds granted new [] ?_ ?_) ?_ fun _ _ h => h)
          · exact underway
          · exact congrArg (Option.map Capability.id) has
          · rintro _ left built
            refine WP.pure_iff.mpr ⟨(List.flatMap_singleton _ _).symm, ?_, built⟩
            obtain ⟨-, capabilities, same, assembly⟩ := underway
            rw [same, firstOf?_plus { record with capabilities } new] at has
            have named : first.type.fullName = type.fullName := by simpa using List.find?_some has
            have listed := List.mem_map_of_mem (f := fun capability : Capability =>
              capability.type.fullName) (List.mem_of_find?_eq_some has)
            refine List.forall_mem_singleton.mpr ?_
            simpa [named] using assembly.mem_names_iff.mp listed

omit granted in
/-- The record of the entity is changed. -/
theorem changeRecord_builds (change : RecordChange)
    (underway : editor.Underway base record writes session.scene) :
    WP (editor.changeRecord record.id change)
      (fun _ left => editor.Underway base (change.apply record) writes left.scene ∧
        left.notes = session.notes)
      (fun _ _ => True) session := by
  rw [changeRecord, WP.bind_iff, WP.scene_iff, WP.bind_iff, WP.ofOption_iff]
  split
  · obtain ⟨wf, capabilities, same, assembly⟩ := underway
    refine WP.modifyEntity_iff.mpr ⟨⟨wf.edit record.id (.ofRecordChange change), capabilities, ?_,
      assembly⟩, rfl⟩
    rw [same]
    exact modify_plus { record with capabilities } new rfl
  · trivial

/-- A new entity is completed: its record, its placement, its capabilities. -/
theorem populate_builds (change : RecordChange) (placement : Placement)
    (transform : Option Descriptor) (wants : Writes)
    (underway : editor.Underway base record [] session.scene) :
    let placed := editor.placed placement transform
    WP (editor.populate record.id change placement transform wants)
      (fun fields left =>
        fields = placed.flatMap (fun write => write.2.keys) ++ wants.flatMap Writes.fields ∧
        (∀ write ∈ placed, write.1.fullName ∈ base.birthTypes) ∧
        editor.Underway base (change.apply record) (placed ++ wants) left.scene ∧
        left.notes = session.notes)
      (fun _ _ => True) session := by
  intro placed
  have new' : (change.apply record).id ∉ base.entities.map Entity.id := new
  rw [populate, WP.bind_iff]
  refine (changeRecord_builds new change underway).mono ?_ fun _ _ h => h
  rintro _ left ⟨underway, notes⟩
  rw [WP.bind_iff]
  refine (place_builds granted new' placement transform underway).mono ?_ fun _ _ h => h
  rintro _ left ⟨rfl, born, underway, notes'⟩
  rw [WP.bind_iff]
  refine (equipAll_builds granted new' wants underway).mono ?_ fun _ _ h => h
  rintro _ left ⟨rfl, underway, notes''⟩
  refine WP.pure_iff.mpr ⟨?_, born, underway, notes''.trans (notes'.trans notes)⟩
  rw [List.flatMap_def (l := wants)]

end

end Editor

end SceneEdit
