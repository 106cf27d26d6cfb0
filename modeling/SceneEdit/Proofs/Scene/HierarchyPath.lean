import SceneEdit.Proofs.Scene.DepthFirst
import SceneEdit.Proofs.Session.Reachable
import SceneEdit.Proofs.Text
import SceneEdit.Session.Lookup

/-!
# Paths in the hierarchy

A hierarchy path is looked up by following its names downward, at each step to the eldest child of
the name, and there is no way back. So the lookup finds a chain of entities of these names if and
only if there is one of which every entity is the eldest of its name among its siblings
(`Forest.atPath?_eq_some_iff`). Every chain is found in a scene where what is below an entity is,
going by names, also below the eldest of its siblings of the same name; in any other scene some path
that exists is not found.

The path that a summary shows names the ancestry of an entity, which is a chain. It leads back to
the entity if and only if all of the ancestry are eldest.
-/

namespace SceneEdit.Scene

variable {scene : Scene} {scope : Option EntityId} {chain : List Entity}

/-! ### Chains -/

/-- Entities each of which is a child of the one before, the first one of `scope` or a root. -/
def Chain (scene : Scene) : Option EntityId → List Entity → Prop
  | _, [] => True
  | scope, entity :: rest =>
    entity ∈ scene.entities ∧ entity.parent = scope ∧ scene.Chain (some entity.id) rest

/-- No elder sibling has the name of the entity. -/
def Eldest (scene : Scene) (entity : Entity) : Prop :=
  ∀ other ∈ scene.entities, other.name = entity.name → ¬ scene.Elder other.id entity.id

/-- Where a chain ends: at its last entity, or where it starts if it has none. -/
def foot (scope : Option EntityId) (chain : List Entity) : Option EntityId :=
  (chain.getLast?.map Entity.id).or scope

theorem foot_cons (scope : Option EntityId) (entity : Entity) (rest : List Entity) :
    foot scope (entity :: rest) = foot (some entity.id) rest := by
  rw [foot, foot, List.getLast?_cons]
  cases rest.getLast? <;> rfl

theorem foot_concat (scope : Option EntityId) (chain : List Entity) (entity : Entity) :
    foot scope (chain ++ [entity]) = some entity.id := by
  rw [foot, List.getLast?_concat]
  rfl

theorem chain_append {more : List Entity} :
    scene.Chain scope (chain ++ more) ↔
      scene.Chain scope chain ∧ scene.Chain (foot scope chain) more := by
  induction chain generalizing scope with
  | nil => exact (and_iff_right trivial).symm
  | cons entity rest ih => rw [List.cons_append, Chain, Chain, ih, foot_cons, and_assoc, and_assoc]

theorem chain_concat {entity : Entity} :
    scene.Chain scope (chain ++ [entity]) ↔
      scene.Chain scope chain ∧ entity ∈ scene.entities ∧ entity.parent = foot scope chain := by
  rw [chain_append, Chain, Chain, and_true]

/-! ### Names in paths -/

/-- A name that can stand in a path: not empty, without blanks at either end and without slashes. -/
structure IsPathName (name : String) : Prop where
  given : name ≠ ""
  unblank : Text.trim name = name
  whole : '/' ∉ name.toList

theorem isPathName_of_mem {path name : String} (member : name ∈ pathNames path) :
    IsPathName name := by
  obtain ⟨made, given⟩ := List.mem_filter.mp member
  obtain ⟨piece, cut, rfl⟩ := List.mem_map.mp made
  refine ⟨of_decide_eq_true given, ?_, ?_⟩
  · have again := Text.trim_trim (String.ofList piece)
    rwa [Text.trim.eq_1 (String.ofList piece), String.toList_ofList] at again
  · rw [String.toList_ofList]
    intro inside
    have slash := Text.not_of_mem_splitOnP cut _ ((Text.strip_infix _ _).subset inside)
    simp at slash

/-- Names that can stand in a path are those of the path that has them between slashes. -/
theorem pathNames_intercalate {names : List String} (sayable : ∀ name ∈ names, IsPathName name) :
    pathNames (String.intercalate "/" names) = names := by
  cases names with
  | nil => decide
  | cons first rest =>
      have pieces : (String.intercalate "/" (first :: rest)).toList.splitOn '/' =
          (first :: rest).map String.toList := by
        rw [String.toList_intercalate]
        refine List.splitOn_intercalate '/' (fun piece member => ?_) (by simp)
        obtain ⟨name, inside, rfl⟩ := List.mem_map.mp member
        exact (sayable name inside).whole
      have trimmed : ((first :: rest).map String.toList).map
          (fun piece => String.ofList (Text.trimmed piece)) = first :: rest := by
        rw [List.map_map]
        refine (List.map_congr_left fun name inside => ?_).trans (List.map_id _)
        exact (sayable name inside).unblank
      rw [pathNames, pieces, trimmed]
      exact List.filter_eq_self.mpr fun name inside => decide_eq_true (sayable name inside).given

/-- What is below an entity is, going by names, also below the eldest of its siblings of the same
name. Names that cannot stand in a path do not count. -/
def EldestCover (scene : Scene) : Prop :=
  ∀ first ∈ scene.entities, scene.Eldest first → ∀ other ∈ scene.entities,
    other.parent = first.parent → other.name = first.name → IsPathName first.name →
    ∀ chain, scene.Chain (some other.id) chain → (∀ entity ∈ chain, IsPathName entity.name) →
    ∃ chain', scene.Chain (some first.id) chain' ∧ chain'.map Entity.name = chain.map Entity.name

/-- Every path of which there is a chain of entities leads somewhere. -/
def PathsLead (scene : Scene) : Prop :=
  ∀ scope path chain, pathNames path ≠ [] → scene.Chain scope chain →
    chain.map Entity.name = pathNames path → ∃ id, scene.atPath? scope path = some id

/-- An entity and those above it, from the root down. -/
def ancestry (scene : Scene) (id : EntityId) : List Entity :=
  ((scene.lineage id).filterMap scene.entity?).reverse

/-- The path of a summary has the names of the ancestry between slashes. -/
theorem hierarchyPath_eq (env : Environment) (scene : Scene) (id : EntityId) :
    ({ env } : Host).hierarchyPath scene id =
      String.intercalate "/" ((scene.ancestry id).map Entity.name) := by
  rw [ancestry, List.map_reverse]
  rfl

namespace Forest

variable (forest : scene.Forest)
include forest

/-! ### The eldest child of a name -/

theorem eldest_unique {first second : Entity} (inside : first ∈ scene.entities)
    (inside' : second ∈ scene.entities) (siblings : first.parent = second.parent)
    (named : first.name = second.name) (eldest : scene.Eldest first)
    (eldest' : scene.Eldest second) : first = second := by
  have member : first.id ∈ scene.childIds second.parent :=
    mem_childIds.mpr ⟨first, inside, rfl, siblings⟩
  have member' : second.id ∈ scene.childIds second.parent :=
    mem_childIds.mpr ⟨second, inside', rfl, rfl⟩
  obtain same | elder | younger := elder_trichotomy member member'
  · exact List.inj_on_of_nodup_map forest.ids_nodup inside inside' same
  · exact absurd elder (eldest' first inside named)
  · exact absurd younger (eldest second inside' named.symm)

theorem any_entity?_iff {entity : Entity} (inside : entity ∈ scene.entities) {name : String} :
    ((scene.entity? entity.id).any fun entity => entity.name = name) = true ↔
      entity.name = name := by
  rw [forest.entity?_of_mem inside, Option.any_some, decide_eq_true_eq]

/-- What one step down finds is the eldest child of the name. -/
theorem exists_of_find?_childIds {name : String} {id : EntityId}
    (found : ((scene.childIds scope).find? fun id =>
      (scene.entity? id).any fun entity => entity.name = name) = some id) :
    ∃ entity ∈ scene.entities, entity.id = id ∧ entity.parent = scope ∧ entity.name = name ∧
      scene.Eldest entity := by
  have member := List.mem_of_find?_eq_some found
  obtain ⟨named, before, after, split, others⟩ := List.find?_eq_some_iff_append.mp found
  obtain ⟨entity, inside, rfl, child⟩ := mem_childIds.mp member
  rw [forest.any_entity?_iff inside] at named
  refine ⟨entity, inside, rfl, child, named, fun other inside' same elder => ?_⟩
  obtain ⟨parent, sibling, sibling'⟩ := elder.siblings
  obtain rfl : parent = scope := (forest.parentOf?_of_mem_childIds sibling').symm.trans
    (forest.parentOf?_of_mem_childIds member)
  have ordered := forest.pairwise_elder parent
  rw [split] at sibling ordered
  obtain earlier | later := List.mem_append.mp sibling
  · have matched := (forest.any_entity?_iff inside').mpr (same.trans named)
    have unmatched := others _ earlier
    rw [matched] at unmatched
    cases unmatched
  · obtain here | later := List.mem_cons.mp later
    · exact elder.ne here
    · have younger := (List.pairwise_cons.mp (List.pairwise_append.mp ordered).2.1).1 _ later
      exact Nat.lt_asymm elder.earlier younger.earlier

/-- Among the children of a name one step down finds the eldest. -/
theorem exists_eldest {entity : Entity} (inside : entity ∈ scene.entities) :
    ∃ first ∈ scene.entities, first.parent = entity.parent ∧ first.name = entity.name ∧
      scene.Eldest first ∧ ((scene.childIds entity.parent).find? fun id =>
        (scene.entity? id).any fun other => other.name = entity.name) = some first.id := by
  have some : ((scene.childIds entity.parent).find? fun id =>
      (scene.entity? id).any fun other => other.name = entity.name).isSome = true :=
    List.find?_isSome.mpr ⟨entity.id, mem_childIds.mpr ⟨entity, inside, rfl, rfl⟩,
      (forest.any_entity?_iff inside).mpr rfl⟩
  obtain ⟨id, found⟩ := Option.isSome_iff_exists.mp some
  obtain ⟨first, inside', rfl, child, named, eldest⟩ := forest.exists_of_find?_childIds found
  exact ⟨first, inside', child, named, eldest, found⟩

theorem find?_childIds_eq_some_iff {name : String} {id : EntityId} :
    ((scene.childIds scope).find? fun id =>
      (scene.entity? id).any fun entity => entity.name = name) = some id ↔
    ∃ entity ∈ scene.entities, entity.id = id ∧ entity.parent = scope ∧ entity.name = name ∧
      scene.Eldest entity := by
  refine ⟨forest.exists_of_find?_childIds, ?_⟩
  rintro ⟨entity, inside, rfl, rfl, rfl, eldest⟩
  obtain ⟨first, inside', child, named, eldest', found⟩ := forest.exists_eldest inside
  rwa [forest.eldest_unique inside' inside child named eldest' eldest] at found

/-! ### Following names -/

/-- Following names finds a chain of eldest entities. -/
theorem descend?_eq_some_iff {names : List String} {id : EntityId} :
    scene.descend? scope names = some id ↔ ∃ chain, scene.Chain scope chain ∧
      chain.map Entity.name = names ∧ (∀ entity ∈ chain, scene.Eldest entity) ∧
      foot scope chain = some id := by
  induction names generalizing scope with
  | nil =>
      rw [descend?]
      constructor
      · rintro rfl
        exact ⟨[], trivial, rfl, by simp, rfl⟩
      · rintro ⟨chain, -, none, -, ends⟩
        rwa [List.map_eq_nil_iff.mp none] at ends
  | cons name rest ih =>
      rw [descend?, Option.bind_eq_some_iff]
      simp only [forest.find?_childIds_eq_some_iff, ih]
      constructor
      · rintro ⟨_, ⟨entity, inside, rfl, child, rfl, eldest⟩, chain, links, rfl, others, ends⟩
        exact ⟨entity :: chain, ⟨inside, child, links⟩, rfl,
          List.forall_mem_cons.mpr ⟨eldest, others⟩, (foot_cons scope entity chain).trans ends⟩
      · rintro ⟨chain, links, names, eldest, ends⟩
        obtain ⟨entity, chain, rfl, rfl, rfl⟩ := List.map_eq_cons_iff.mp names
        obtain ⟨inside, child, links⟩ := links
        obtain ⟨eldest, others⟩ := List.forall_mem_cons.mp eldest
        exact ⟨_, ⟨entity, inside, rfl, child, rfl, eldest⟩, chain, links, rfl, others,
          (foot_cons scope entity chain).symm.trans ends⟩

/-- A lookup finds a chain of eldest entities that have the names in the path, of which there must
be one. -/
theorem atPath?_eq_some_iff {path : String} {id : EntityId} :
    scene.atPath? scope path = some id ↔ pathNames path ≠ [] ∧ ∃ chain,
      scene.Chain scope chain ∧ chain.map Entity.name = pathNames path ∧
      (∀ entity ∈ chain, scene.Eldest entity) ∧ chain.getLast?.map Entity.id = some id := by
  have walked : scene.atPath? scope path = if pathNames path = [] then none else
      scene.descend? scope (pathNames path) := by
    rw [atPath?]
    split
    · rename_i none
      rw [if_pos none]
    · rename_i given
      rw [if_neg given]
  rw [walked]
  split
  · rename_i none
    simp [none]
  · rename_i given
    rw [forest.descend?_eq_some_iff, and_iff_right given]
    refine exists_congr fun chain => and_congr_right fun _ => and_congr_right fun names =>
      and_congr_right fun _ => ?_
    have some : chain ≠ [] := by
      rintro rfl
      exact given names.symm
    rw [foot, List.getLast?_eq_some_getLast some]
    rfl

/-- Where the eldest cover their namesakes, for every chain there is one of eldest entities with the
same names. -/
theorem exists_eldest_chain (covers : scene.EldestCover)
    {names : List String} (sayable : ∀ name ∈ names, IsPathName name)
    (links : scene.Chain scope chain) (named : chain.map Entity.name = names) :
    ∃ chain', scene.Chain scope chain' ∧ chain'.map Entity.name = names ∧
      ∀ entity ∈ chain', scene.Eldest entity := by
  induction names generalizing scope chain with
  | nil => exact ⟨[], trivial, rfl, by simp⟩
  | cons name rest ih =>
      obtain ⟨entity, below, rfl, rfl, rfl⟩ := List.map_eq_cons_iff.mp named
      obtain ⟨inside, child, links⟩ := links
      obtain ⟨here, sayable⟩ := List.forall_mem_cons.mp sayable
      obtain ⟨first, inside', child', named', eldest, -⟩ := forest.exists_eldest inside
      obtain ⟨below', links', same⟩ := covers first inside' eldest entity inside child'.symm
        named'.symm (named' ▸ here) below links
        fun entity member => sayable _ (List.mem_map_of_mem member)
      obtain ⟨chain', links', named, others⟩ := ih sayable links' same
      exact ⟨first :: chain', ⟨inside', child'.trans child, links'⟩,
        by rw [List.map_cons, named', named], List.forall_mem_cons.mpr ⟨eldest, others⟩⟩

/-- The path through a younger sibling is looked up through the eldest one. -/
theorem eldestCover_of_pathsLead (lead : scene.PathsLead) : scene.EldestCover := by
  intro first inside eldest other inside' siblings named here chain links sayable
  have names : pathNames (String.intercalate "/" ((other :: chain).map Entity.name)) =
      (other :: chain).map Entity.name := by
    refine pathNames_intercalate (List.forall_mem_cons.mpr ⟨named ▸ here, ?_⟩)
    exact List.forall_mem_map.mpr sayable
  obtain ⟨id, found⟩ := lead first.parent _ (other :: chain)
    (names.trans_ne (List.cons_ne_nil _ _)) ⟨inside', siblings, links⟩ names.symm
  obtain ⟨-, chain', links', named', eldest', -⟩ := forest.atPath?_eq_some_iff.mp found
  rw [names, List.map_cons] at named'
  obtain ⟨top, below, rfl, same, named'⟩ := List.map_eq_cons_iff.mp named'
  obtain ⟨inside'', child, links'⟩ := links'
  obtain rfl : top = first := forest.eldest_unique inside'' inside child (same.trans named)
    (eldest' top List.mem_cons_self) eldest
  exact ⟨below, links', named'⟩

theorem pathsLead_iff : scene.PathsLead ↔ scene.EldestCover := by
  refine ⟨forest.eldestCover_of_pathsLead, fun covers scope path chain given links named => ?_⟩
  obtain ⟨chain', links', named', eldest⟩ :=
    forest.exists_eldest_chain covers (fun _ => isPathName_of_mem) links named
  have some : chain' ≠ [] := by
    rintro rfl
    exact given named'.symm
  exact ⟨_, forest.atPath?_eq_some_iff.mpr ⟨given, chain', links', named', eldest,
    by rw [List.getLast?_eq_some_getLast some]; rfl⟩⟩

/-! ### The ancestry of an entity -/

theorem ancestry_eq {entity : Entity} (inside : entity ∈ scene.entities) :
    scene.ancestry entity.id = (entity.parent.map scene.ancestry).getD [] ++ [entity] := by
  rw [ancestry, forest.lineage_eq, forest.parentOf?_of_mem inside,
    List.filterMap_cons_some (forest.entity?_of_mem inside), List.reverse_cons]
  cases entity.parent <;> rfl

theorem getLast?_ancestry {entity : Entity} (inside : entity ∈ scene.entities) :
    (scene.ancestry entity.id).getLast? = some entity := by
  rw [forest.ancestry_eq inside, List.getLast?_concat]

/-- By induction along the links to parents. -/
theorem chain_ancestry {entity : Entity} (inside : entity ∈ scene.entities) :
    scene.Chain none (scene.ancestry entity.id) := by
  induction known : entity.id using forest.wellFounded_parent.induction generalizing entity with
  | _ id ih =>
      subst known
      rw [forest.ancestry_eq inside, chain_concat]
      cases link : entity.parent with
      | none => exact ⟨trivial, inside, rfl⟩
      | some above =>
          obtain ⟨parent, inside', rfl⟩ :=
            List.mem_map.mp (forest.parents_exist entity inside above link)
          have step : scene.parentOf? entity.id = some parent.id :=
            (forest.parentOf?_of_mem inside).trans link
          refine ⟨ih _ step inside' rfl, inside, ?_⟩
          rw [Option.map_some, Option.getD_some, forest.ancestry_eq inside', foot_concat]

/-- A chain from a root down to an entity is its ancestry. -/
theorem eq_ancestry_of_chain {entity : Entity} (links : scene.Chain none chain)
    (ends : chain.getLast? = some entity) : chain = scene.ancestry entity.id := by
  induction chain using List.reverseRecOn generalizing entity with
  | nil => cases ends
  | append_singleton before last ih =>
      rw [List.getLast?_concat, Option.some.injEq] at ends
      subst ends
      obtain ⟨above, inside, child⟩ := chain_concat.mp links
      rw [forest.ancestry_eq inside, child, foot]
      cases end' : before.getLast? with
      | none => rw [List.getLast?_eq_none_iff.mp end']; rfl
      | some parent => rw [ih above end']; rfl

/-- A path with the names of the ancestry leads to the entity if and only if all of the ancestry are
eldest. -/
theorem atPath?_ancestry_iff {entity : Entity} {path : String} (inside : entity ∈ scene.entities)
    (names : pathNames path = (scene.ancestry entity.id).map Entity.name) :
    scene.atPath? none path = some entity.id ↔
      ∀ above ∈ scene.ancestry entity.id, scene.Eldest above := by
  have ends := forest.getLast?_ancestry inside
  rw [forest.atPath?_eq_some_iff, names]
  constructor
  · rintro ⟨-, chain, links, -, eldest, ends'⟩
    obtain ⟨last, end', same⟩ := Option.map_eq_some_iff.mp ends'
    rwa [forest.eq_ancestry_of_chain links end', same] at eldest
  · intro eldest
    have given : scene.ancestry entity.id ≠ [] := by
      intro none
      rw [none] at ends
      cases ends
    exact ⟨by simpa using given, _, forest.chain_ancestry inside, rfl, eldest,
      congrArg (Option.map Entity.id) ends⟩

end Forest

/-! ### Looking paths up -/

/-- In every reachable scene a path leads to an entity if and only if a chain of the names in the
path, of which there must be one, ends there, and all on it are the eldest of their name among their
siblings. Every path of which there is a chain leads somewhere if and only if the eldest cover their
namesakes. The path of a summary, if its names can stand in a path, names a chain that ends at the
entity, and leads there if and only if all on this chain are eldest. -/
theorem path_lookup_exact (reached : scene.Reachable) :
    (∀ scope path id, scene.atPath? scope path = some id ↔ pathNames path ≠ [] ∧ ∃ chain,
      scene.Chain scope chain ∧ chain.map Entity.name = pathNames path ∧
      (∀ entity ∈ chain, scene.Eldest entity) ∧ chain.getLast?.map Entity.id = some id) ∧
    (scene.PathsLead ↔ scene.EldestCover) ∧
    ∀ env, ∀ entity ∈ scene.entities,
      (∀ above ∈ scene.ancestry entity.id, IsPathName above.name) →
      scene.Chain none (scene.ancestry entity.id) ∧
      (scene.ancestry entity.id).getLast? = some entity ∧
      (scene.ancestry entity.id).map Entity.name =
        pathNames (({ env } : Host).hierarchyPath scene entity.id) ∧
      (scene.atPath? none (({ env } : Host).hierarchyPath scene entity.id) = some entity.id ↔
        ∀ above ∈ scene.ancestry entity.id, scene.Eldest above) := by
  have forest := reached.wellFormed.toForest
  refine ⟨fun _ _ _ => forest.atPath?_eq_some_iff, forest.pathsLead_iff,
    fun env entity inside sayable => ?_⟩
  have names : pathNames (({ env } : Host).hierarchyPath scene entity.id) =
      (scene.ancestry entity.id).map Entity.name := by
    rw [hierarchyPath_eq, pathNames_intercalate (List.forall_mem_map.mpr sayable)]
  exact ⟨forest.chain_ancestry inside, forest.getLast?_ancestry inside, names.symm,
    forest.atPath?_ancestry_iff inside names⟩

/-! ### Two rooms -/

/-- In a reachable scene a chain leads to every entity. -/
theorem Reachable.exists_chain (reached : scene.Reachable) {id : EntityId}
    (known : id ∈ scene.entities.map Entity.id) :
    scene.Chain none (scene.ancestry id) ∧
      (scene.ancestry id).getLast?.map Entity.id = some id := by
  have forest := reached.wellFormed.toForest
  obtain ⟨entity, inside, rfl⟩ := List.mem_map.mp known
  exact ⟨forest.chain_ancestry inside,
    congrArg (Option.map Entity.id) (forest.getLast?_ancestry inside)⟩

/-- A lamp in one of two rooms of the same name. -/
def rooms (lit : EntityId) : Scene :=
  ((({} : Scene).after (.create "Room" none)).after (.create "Room" none)).after
    (.create "Lamp" (some lit))

theorem rooms_reachable (lit : EntityId) : (rooms lit).Reachable :=
  (((Reachable.fresh _ _).step _).step _).step _

/-- The lamp in the elder room is found. After its room was moved behind the other one there are
paths that are not found. -/
theorem path_lookup_exact_of_rooms :
    (∃ chain, (rooms ⟨1⟩).Chain none chain ∧ chain.map Entity.name = ["Room", "Lamp"] ∧
      (∀ entity ∈ chain, (rooms ⟨1⟩).Eldest entity) ∧
      chain.getLast?.map Entity.id = some ⟨3⟩) ∧
    ¬ ((rooms ⟨1⟩).after (.setParent ⟨1⟩ none)).EldestCover := by
  constructor
  · obtain ⟨-, found⟩ := ((path_lookup_exact (rooms_reachable ⟨1⟩)).1 none " Room//Lamp" ⟨3⟩).mp
      (by decide)
    exact found
  · intro covers
    have moved := (rooms_reachable ⟨1⟩).step (.setParent ⟨1⟩ none)
    obtain ⟨links, -⟩ := moved.exists_chain (by decide : (⟨3⟩ : EntityId) ∈ _)
    obtain ⟨id, found⟩ := (path_lookup_exact moved).2.1.mpr covers none "Room/Lamp" _
      (by decide) links (by decide)
    cases found.symm.trans (by decide : _ = none)

/-- The lamp in the younger room is not found along the path that its summary shows. -/
theorem path_not_found :
    (rooms ⟨2⟩).Reachable ∧ (∃ chain, (rooms ⟨2⟩).Chain none chain ∧
      chain.map Entity.name = pathNames "Room/Lamp" ∧
      chain.getLast?.map Entity.id = some ⟨3⟩) ∧
    ({} : Host).hierarchyPath (rooms ⟨2⟩) ⟨3⟩ = "Room/Lamp" ∧
    (rooms ⟨2⟩).atPath? none "Room/Lamp" = none ∧
    ¬ ∀ scene : Scene, scene.Reachable → ∀ scope path, pathNames path ≠ [] →
      ((∃ id, scene.atPath? scope path = some id) ↔
        ∃ chain, scene.Chain scope chain ∧ chain.map Entity.name = pathNames path) := by
  have reached := rooms_reachable ⟨2⟩
  obtain ⟨links, ends⟩ := reached.exists_chain (by decide : (⟨3⟩ : EntityId) ∈ _)
  have lost : (rooms ⟨2⟩).atPath? none "Room/Lamp" = none := by decide
  refine ⟨reached, ⟨_, links, by decide, ends⟩, by decide, lost, fun claimed => ?_⟩
  obtain ⟨id, found⟩ := (claimed _ reached none "Room/Lamp" (by decide)).mpr
    ⟨_, links, by decide⟩
  cases lost.symm.trans found

end SceneEdit.Scene
