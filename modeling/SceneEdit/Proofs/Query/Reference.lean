import SceneEdit.Proofs.Query.Membership
import SceneEdit.Proofs.Scene.HierarchyPath

/-!
# References to one entity

A reference, such as a parent, a scope or what to move along, is to name exactly one entity, and is
answered with an error otherwise: `Settles` says what each number of entities calls for. As an
identity and as a name a reference is settled so. As a path it is not, since the lookup follows the
eldest entity of each name and does not tell of others that have the same path. Hence references to
a scene are strict if and only if no path that leads somewhere is also the path of another entity
(`Host.reference_strict_iff`).
-/

namespace SceneEdit

theorem Numeral.int64?_of_slash (rest : List Char) : int64? ('/' :: rest) = none := by
  have noDigits : natural? ('/' :: rest) = none := by
    rw [natural?, if_neg]
    simp
  rw [int64?, integer?]
  simp [splitSign, noDigits]

namespace Scene

variable {scene : Scene}

/-! ### Paths between slashes -/

/-- The path with a slash before and behind its names. -/
def slashed (names : List String) : String :=
  String.ofList ('/' :: ((String.intercalate "/" names).toList ++ ['/']))

theorem slashed_ne_empty (names : List String) : slashed names ≠ "" := by
  intro empty
  have none := congrArg String.toList empty
  rw [slashed, String.toList_ofList] at none
  exact absurd none (List.cons_ne_nil _ _)

theorem trim_slashed (names : List String) : Text.trim (slashed names) = slashed names := by
  rw [slashed, Text.trim, Text.trimmed, Text.strip, String.toList_ofList,
    List.dropWhile_cons_of_neg (by decide), List.reverse_cons, List.reverse_append]
  simp [show Text.isBlank '/' = false by decide]

theorem pathNames_slashed {names : List String} (sayable : ∀ name ∈ names, IsPathName name) :
    pathNames (slashed names) = names := by
  have inner := pathNames_intercalate sayable
  rw [pathNames, List.splitOn_eq_splitOnP] at inner ⊢
  rw [slashed, String.toList_ofList, List.splitOnP_cons_eq_if_modifyHead, if_pos (by decide),
    List.splitOnP_append_cons _ _ (by decide), List.splitOnP_nil]
  simpa [Text.trimmed, Text.strip] using inner

/-- No path that leads to a listed entity is the path of another one too. Names that cannot stand in
a path do not count. -/
def PathsTell (scene : Scene) (includeInactive : Bool) : Prop :=
  ∀ first ∈ scene.allEntities includeInactive, ∀ other ∈ scene.allEntities includeInactive,
    (∀ above ∈ scene.ancestry first, scene.Eldest above ∧ IsPathName above.name) →
    (scene.ancestry other).map Entity.name = (scene.ancestry first).map Entity.name →
    other = first

/-- Where a path leads, the names of the ancestry are those of the path, and all of it is eldest. -/
theorem Forest.ancestry_of_atPath? (forest : scene.Forest) {path : String} {id : EntityId}
    (place : scene.atPath? none path = some id) :
    (scene.ancestry id).map Entity.name = pathNames path ∧
      ∀ above ∈ scene.ancestry id, scene.Eldest above := by
  obtain ⟨-, chain, links, names, eldest, ends⟩ := forest.atPath?_eq_some_iff.mp place
  obtain ⟨last, last', rfl⟩ := Option.map_eq_some_iff.mp ends
  obtain rfl := forest.eq_ancestry_of_chain links last'
  exact ⟨names, eldest⟩

end Scene

namespace Host

/-- How a reference is read. -/
inductive Reading where
  | identity
  | path
  | name
  deriving DecidableEq, Repr

/-- Whether a term, read in one way, names an entity. -/
def Reading.names (scene : Scene) (term : String) (id : EntityId) : Reading → Bool
  | .identity => Numeral.int64? term.toList = some id.number
  | .path => (scene.ancestry id).map Entity.name = Scene.pathNames term
  | .name => (scene.entity? id).any fun entity => entity.name = term

/-- A term is read as an identity if a listed entity has it, else as a path if it has a slash and
leads to a listed entity, else as a name. -/
def reading (scene : Scene) (includeInactive : Bool) (term : String) : Reading :=
  let pool := scene.allEntities includeInactive
  if pool.any fun id => Reading.identity.names scene term id then .identity
  else if term.toList.contains '/' && (scene.atPath? none term).any pool.contains then .path
  else .name

/-- The listed entities that a term names, as it is read. -/
def named (scene : Scene) (includeInactive : Bool) (term : String) : List EntityId :=
  (scene.allEntities includeInactive).filter fun id =>
    (reading scene includeInactive term).names scene term id

/-- The complaint that a term names several entities, with a list of them. -/
def severalNamed (host : Host) (scene : Scene) (term : String) (ids : List EntityId) : Error :=
  let labels := ids.map (host.label scene)
  let listed := String.intercalate ", " labels
  .ambiguous s!"'{term}' matches {ids.length} entities: {listed}. Use an id or a path" labels

/-- What a reference is answered that is to name exactly one entity. -/
inductive Settles (host : Host) (scene : Scene) (term : String) :
    List EntityId → Except Report EntityId → Prop
  | none : Settles host scene term [] (.error { error := .absent "entity" term })
  | one (id : EntityId) : Settles host scene term [id] (.ok id)
  | several {ids : List EntityId} (more : 1 < ids.length) :
      Settles host scene term ids (.error { error := host.severalNamed scene term ids })

variable {host : Host} {scene : Scene} {includeInactive : Bool} {reference term : String}
  {id : EntityId}

theorem Settles.of_singleton {answer : Except Report EntityId}
    (settled : host.Settles scene term [id] answer) : answer = .ok id := by
  cases settled with
  | one => rfl
  | several more => exact absurd more (Nat.lt_irrefl 1)

theorem Settles.of_several {ids : List EntityId} {answer : Except Report EntityId}
    (settled : host.Settles scene term ids answer) (more : 1 < ids.length) :
    answer = .error { error := host.severalNamed scene term ids } := by
  cases settled with
  | none => exact absurd more (Nat.not_lt_zero 1)
  | one => exact absurd more (Nat.lt_irrefl 1)
  | several => rfl

theorem Settles.eq_singleton {ids : List EntityId}
    (settled : host.Settles scene term ids (.ok id)) : ids = [id] := by
  cases settled
  rfl

/-! ### What a reference is read as -/

theorem resolveUnique_of_blank (blank : Text.trim reference = "") :
    host.resolveUnique scene includeInactive reference =
      .error { error := .missing "entity reference" } := by
  rw [resolveUnique]
  exact if_pos blank

/-- What is found for a reference settles it. -/
theorem settles_referents (host : Host) (scene : Scene) (includeInactive : Bool)
    (given : Text.trim reference ≠ "") :
    host.Settles scene (Text.trim reference)
      (host.referents scene includeInactive (Text.trim reference))
      (host.resolveUnique scene includeInactive reference) := by
  rw [resolveUnique]
  simp only [if_neg given]
  split
  · rename_i found
    rw [found]
    exact .none
  · rename_i id found
    rw [found]
    exact .one id
  · rename_i noneOf oneOf
    refine .several ?_
    rcases found : host.referents scene includeInactive (Text.trim reference) with
      _ | ⟨first, _ | ⟨second, rest⟩⟩
    · exact absurd found noneOf
    · exact absurd found (oneOf first)
    · exact Nat.succ_lt_succ (Nat.succ_pos _)

/-- Each listed entity is found once, so that taking repeated ones out changes nothing. -/
theorem referents_eq (forest : scene.Forest) (includeInactive : Bool) (term : String) :
    host.referents scene includeInactive term =
      host.selectLoosely scene none (scene.allEntities includeInactive) term := by
  have distinct := forest.nodup_of_depthFirst (forest.depthFirst_allEntities includeInactive)
  exact eraseDups_eq_self ((selectLoosely_sublist _ _ _).nodup distinct)

/-- The entity that a term names as an identity, else the one it leads to as a path, else those it
names. -/
theorem selectLoosely_eq (host : Host) (scene : Scene) (pool : List EntityId) (term : String) :
    let identified := pool.filter fun id => Reading.identity.names scene term id
    host.selectLoosely scene none pool term =
      if pool.any fun id => Reading.identity.names scene term id then identified
      else if term.toList.contains '/' && (scene.atPath? none term).any pool.contains then
        (scene.atPath? none term).toList
      else host.select scene pool fun entity => entity.name = term := by
  intro identified
  have byPath : (if term.toList.contains '/' then selectPath scene none pool term else []) =
      if term.toList.contains '/' && (scene.atPath? none term).any pool.contains then
        (scene.atPath? none term).toList
      else [] := by
    rw [selectPath]
    cases term.toList.contains '/' <;> cases scene.atPath? none term <;>
      simp [Option.filter_some, apply_ite]
  have byId : ((EntityId.parse? term).elim [] fun id => pool.filter (· = id)) = identified := by
    have reads : ∀ id, Reading.identity.names scene term id =
        decide (EntityId.parse? term = some id) := fun _ =>
      decide_eq_decide.mpr EntityId.parse?_eq_some_iff.symm
    simp only [identified, reads]
    cases EntityId.parse? term with
    | none => simp
    | some id => simp [eq_comm]
  have found : identified ≠ [] ↔ (pool.any fun id => Reading.identity.names scene term id) := by
    simp [identified, List.filter_eq_nil_iff]
  have tried : host.selectLoosely scene none pool term =
      if identified ≠ [] then identified
      else if (if term.toList.contains '/' && (scene.atPath? none term).any pool.contains then
          (scene.atPath? none term).toList else []) ≠ [] then
        if term.toList.contains '/' && (scene.atPath? none term).any pool.contains then
          (scene.atPath? none term).toList else []
      else host.select scene pool fun entity => entity.name = term := by
    rw [← byId, ← byPath, selectLoosely]
    cases EntityId.parse? term <;> rfl
  rw [tried]
  refine if_congr found rfl ?_
  split
  · rename_i leads
    obtain ⟨-, leads⟩ := Bool.and_eq_true_iff.mp leads
    obtain ⟨id, place⟩ := Option.isSome_iff_exists.mp (Option.isSome_of_any leads)
    rw [place]
    rfl
  · rfl

/-- What is found for a reference are the entities it names, unless it is read as a path; then it is
the one that the path leads to. -/
theorem referents_cases (granted : host.Grants .viewEntity) (forest : scene.Forest)
    (includeInactive : Bool) (term : String) :
    (reading scene includeInactive term ≠ .path ∧
      host.referents scene includeInactive term = named scene includeInactive term) ∨
    (reading scene includeInactive term = .path ∧ term.toList.contains '/' = true ∧
      ∃ id ∈ scene.allEntities includeInactive, scene.atPath? none term = some id ∧
        host.referents scene includeInactive term = [id]) := by
  rw [referents_eq forest, selectLoosely_eq, named, reading]
  split
  · exact .inl ⟨by decide, rfl⟩
  · split
    · rename_i leads
      obtain ⟨slash, leads⟩ := Bool.and_eq_true_iff.mp leads
      obtain ⟨id, place⟩ := Option.isSome_iff_exists.mp (Option.isSome_of_any leads)
      rw [place, Option.any_some, List.contains_iff_mem] at leads
      exact .inr ⟨rfl, slash, id, leads, place, by rw [place]; rfl⟩
    · refine .inl ⟨by decide, List.filter_congr fun id _ => ?_⟩
      rw [granted.entity?]
      rfl

/-- A reference that is read as a path leads to one of the entities that it names. -/
theorem exists_named (granted : host.Grants .viewEntity) (forest : scene.Forest)
    (given : Text.trim reference ≠ "")
    (read : reading scene includeInactive (Text.trim reference) = .path) :
    ∃ id ∈ named scene includeInactive (Text.trim reference),
      host.resolveUnique scene includeInactive reference = .ok id ∧
      scene.atPath? none (Text.trim reference) = some id := by
  have settled := host.settles_referents scene includeInactive given
  obtain ⟨other, -⟩ | ⟨-, -, id, listed, place, found⟩ :=
    referents_cases granted forest includeInactive (Text.trim reference)
  · exact absurd read other
  · refine ⟨id, List.mem_filter.mpr ⟨listed, ?_⟩, ?_, place⟩
    · rw [read]
      exact decide_eq_true (forest.ancestry_of_atPath? place).1
    · exact (found ▸ settled).of_singleton

/-- A reference is settled unless it is the path of several entities. -/
theorem settles_iff (granted : host.Grants .viewEntity) (forest : scene.Forest)
    (given : Text.trim reference ≠ "") :
    host.Settles scene (Text.trim reference)
        (named scene includeInactive (Text.trim reference))
        (host.resolveUnique scene includeInactive reference) ↔
      (reading scene includeInactive (Text.trim reference) = .path →
        (named scene includeInactive (Text.trim reference)).length = 1) := by
  constructor
  · intro settled read
    obtain ⟨id, -, resolved, -⟩ := exists_named granted forest given read
    exact congrArg List.length (resolved ▸ settled).eq_singleton
  · intro single
    by_cases read : reading scene includeInactive (Text.trim reference) = .path
    · obtain ⟨id, member, resolved, -⟩ := exists_named granted forest given read
      obtain ⟨only, found⟩ := List.length_eq_one_iff.mp (single read)
      rw [found, List.mem_singleton] at member
      rw [found, resolved, member]
      exact .one only
    · obtain ⟨-, found⟩ | ⟨path, -⟩ :=
        referents_cases granted forest includeInactive (Text.trim reference)
      · exact found ▸ host.settles_referents scene includeInactive given
      · exact absurd path read

theorem nodup_named (forest : scene.Forest) : (named scene includeInactive term).Nodup :=
  (forest.nodup_of_depthFirst (forest.depthFirst_allEntities includeInactive)).filter _

theorem mem_named_of_path (read : reading scene includeInactive term = .path) :
    id ∈ named scene includeInactive term ↔ id ∈ scene.allEntities includeInactive ∧
      (scene.ancestry id).map Entity.name = Scene.pathNames term := by
  rw [named, List.mem_filter, read]
  exact and_congr_right fun _ => decide_eq_true_iff

/-- Names between slashes are read as a path if they lead to a listed entity. -/
theorem reading_slashed {names : List String}
    (place : scene.atPath? none (Scene.slashed names) = some id)
    (listed : id ∈ scene.allEntities includeInactive) :
    reading scene includeInactive (Scene.slashed names) = .path := by
  have leads : (scene.atPath? none (Scene.slashed names)).any
      (scene.allEntities includeInactive).contains = true := by
    rw [place, Option.any_some, List.contains_iff_mem]
    exact listed
  have slash : (Scene.slashed names).toList.contains '/' = true := by
    rw [Scene.slashed, String.toList_ofList, List.contains_cons]
    rfl
  have noId : (scene.allEntities includeInactive).any
      (fun id => Reading.identity.names scene (Scene.slashed names) id) = false := by
    refine List.any_eq_false.mpr fun id _ => ?_
    rw [Reading.names, Scene.slashed, String.toList_ofList, Numeral.int64?_of_slash]
    simp
  rw [reading, noId, leads, slash]
  rfl

/-- References are settled if and only if paths tell entities apart. -/
theorem settles_iff_pathsTell (granted : host.Grants .viewEntity) (forest : scene.Forest) :
    (∀ reference, Text.trim reference ≠ "" →
      host.Settles scene (Text.trim reference)
        (named scene includeInactive (Text.trim reference))
        (host.resolveUnique scene includeInactive reference)) ↔
      scene.PathsTell includeInactive := by
  constructor
  · intro settled first listed other listed' telling same
    obtain ⟨entity, inside, rfl⟩ := List.mem_map.mp (allEntities_subset _ listed)
    have names := Scene.pathNames_slashed
      (List.forall_mem_map.mpr fun above member => (telling above member).2)
    have place := (forest.atPath?_ancestry_iff inside names).mpr
      fun above member => (telling above member).1
    have read := reading_slashed place listed
    have given := (Scene.trim_slashed _).trans_ne (Scene.slashed_ne_empty
      ((scene.ancestry entity.id).map Entity.name))
    have single := (settles_iff granted forest given).mp (settled _ given)
    rw [Scene.trim_slashed] at single
    obtain ⟨only, alone⟩ := List.length_eq_one_iff.mp (single read)
    have isOnly {id : EntityId} (listed : id ∈ scene.allEntities includeInactive)
        (path : (scene.ancestry id).map Entity.name =
          (scene.ancestry entity.id).map Entity.name) : id = only := by
      have member := (mem_named_of_path read).mpr ⟨listed, path.trans names.symm⟩
      rwa [alone, List.mem_singleton] at member
    exact (isOnly listed' same).trans (isOnly listed rfl).symm
  · intro tell reference given
    rw [settles_iff granted forest given]
    intro read
    obtain ⟨id, member, -, place⟩ := exists_named granted forest given read
    obtain ⟨names, eldest⟩ := forest.ancestry_of_atPath? place
    have listed := ((mem_named_of_path read).mp member).1
    have telling : ∀ above ∈ scene.ancestry id,
        scene.Eldest above ∧ Scene.IsPathName above.name := fun above member =>
      ⟨eldest above member, Scene.isPathName_of_mem (names ▸ List.mem_map_of_mem member)⟩
    have alone : (named scene includeInactive (Text.trim reference)).Perm [id] := by
      refine (List.perm_ext_iff_of_nodup (nodup_named forest) (List.nodup_singleton id)).mpr ?_
      intro other
      rw [List.mem_singleton]
      refine ⟨fun member' => ?_, fun same => same ▸ member⟩
      obtain ⟨listed', names'⟩ := (mem_named_of_path read).mp member'
      exact tell id listed other listed' telling (names'.trans names.symm)
    exact alone.length_eq

/-- In every reachable scene a reference to a plain host that is not blank names listed entities,
none twice, and is answered as their number calls for, unless it is a path; then it is answered with
the one of them that is eldest along the path, whether there are others or not. So references are
settled if and only if no two paths are confused. -/
theorem reference_strict_iff {scene : Scene} (reached : scene.Reachable) (host : Host)
    (plain : host.refusals = []) (includeInactive : Bool) :
    (∀ reference, Text.trim reference = "" →
      host.resolveUnique scene includeInactive reference =
        .error { error := .missing "entity reference" }) ∧
    (∀ reference, Text.trim reference ≠ "" →
      let read := reading scene includeInactive (Text.trim reference)
      let ids := named scene includeInactive (Text.trim reference)
      let answer := host.resolveUnique scene includeInactive reference
      ids.Nodup ∧
      (host.Settles scene (Text.trim reference) ids answer ↔ (read = .path → ids.length = 1)) ∧
      (read = .path → ∃ id ∈ ids, answer = .ok id ∧
        ∀ above ∈ scene.ancestry id, scene.Eldest above)) ∧
    ((∀ reference, Text.trim reference ≠ "" →
      host.Settles scene (Text.trim reference)
        (named scene includeInactive (Text.trim reference))
        (host.resolveUnique scene includeInactive reference)) ↔
      scene.PathsTell includeInactive) := by
  have forest := reached.wellFormed.toForest
  have granted := grants_of_plain plain .viewEntity
  refine ⟨fun _ => resolveUnique_of_blank, fun reference given =>
    ⟨nodup_named forest, settles_iff granted forest given, fun read => ?_⟩,
    settles_iff_pathsTell granted forest⟩
  obtain ⟨id, member, resolved, place⟩ := exists_named granted forest given read
  exact ⟨id, member, resolved, (forest.ancestry_of_atPath? place).2⟩

/-- The rooms cannot be told apart by name, but the lamp is found along its path. -/
theorem reference_strict_iff_of_rooms :
    let scene := Scene.rooms ⟨1⟩
    named scene true "Room" = [⟨1⟩, ⟨2⟩] ∧
    ({} : Host).resolveUnique scene true " Room " =
      .error { error := ({} : Host).severalNamed scene "Room" [⟨1⟩, ⟨2⟩] } ∧
    ({} : Host).resolveUnique scene true "Room/Lamp" = .ok ⟨3⟩ := by
  intro scene
  obtain ⟨-, strict, -⟩ := reference_strict_iff (Scene.rooms_reachable ⟨1⟩) {} rfl true
  have both : named scene true "Room" = [⟨1⟩, ⟨2⟩] := by decide
  have lamp : named scene true "Room/Lamp" = [⟨3⟩] := by decide
  obtain ⟨-, byName, -⟩ := strict " Room " (by decide)
  obtain ⟨-, byPath, -⟩ := strict "Room/Lamp" (by decide)
  have several := byName.mpr fun path => absurd path (by decide)
  have one := byPath.mpr fun _ => by decide
  rw [show Text.trim " Room " = "Room" by decide, both] at several
  rw [show Text.trim "Room/Lamp" = "Room/Lamp" by decide, lamp] at one
  exact ⟨both, several.of_several (by decide), one.of_singleton⟩

/-- Where both rooms have a lamp, the path of the lamps is answered with the elder one. -/
theorem reference_not_strict :
    let scene := (Scene.rooms ⟨1⟩).after (.create "Lamp" (some ⟨2⟩))
    scene.Reachable ∧
    named scene true "Room/Lamp" = [⟨3⟩, ⟨4⟩] ∧
    ({} : Host).resolveUnique scene true "Room/Lamp" = .ok ⟨3⟩ ∧
    ¬ ∀ scene : Scene, scene.Reachable → ∀ includeInactive reference id,
      ({} : Host).resolveUnique scene includeInactive reference = .ok id →
      named scene includeInactive (Text.trim reference) = [id] := by
  intro scene
  have reached : scene.Reachable := (Scene.rooms_reachable ⟨1⟩).step _
  have both : named scene true "Room/Lamp" = [⟨3⟩, ⟨4⟩] := by decide
  have elder : ({} : Host).resolveUnique scene true "Room/Lamp" = .ok ⟨3⟩ := by decide
  refine ⟨reached, both, elder, fun claimed => ?_⟩
  have alone := claimed scene reached true "Room/Lamp" ⟨3⟩ elder
  rw [show Text.trim "Room/Lamp" = "Room/Lamp" by decide, both] at alone
  cases alone

end Host
end SceneEdit
