import SceneEdit.Proofs.Suggestion.Closest
import SceneEdit.Proofs.Types.Recall

/-!
# Which type a name means

A name that nothing is remembered for means the first type of that full name, if that one fits the
category. Otherwise all types that fit and bear the name are looked at. Those in preferred modules
decide, or all of them if none is preferred, and a type that was registered several times counts
once: a single type is the answer, and with none or with several the call fails
(`resolution_by_partition`).

Duplicates are erased before the preferred types are separated from the others. Whether a type bears
the name, and which modules own it, is the same for all registrations of the type, so what is left
is the first registration of each deciding type, in the order of the catalog (`firsts_shadowed`).
Where all full names differ, the catalog's order decides nothing but the order in which an ambiguity
lists the types.
-/

namespace SceneEdit

/-! ### First occurrences -/

section

variable {α β : Type} [DecidableEq β] {key : α → β} {items kept : List α}

/-- By their keys, one item of a list occurs before another one does. -/
def OccursBefore (key : α → β) (items : List α) (a b : α) : Prop :=
  ∃ earlier later, items = earlier ++ later ∧ key a ∈ earlier.map key ∧ key b ∉ earlier.map key

omit [DecidableEq β] in
theorem OccursBefore.asymm {a b : α} (before : OccursBefore key items a b) :
    ¬ OccursBefore key items b a := by
  rintro ⟨earlier', later', split', has', lacks'⟩
  obtain ⟨earlier, later, split, has, lacks⟩ := before
  have front : earlier <+: items := ⟨later, split.symm⟩
  have front' : earlier' <+: items := ⟨later', split'.symm⟩
  obtain shorter | longer := List.prefix_or_prefix_of_prefix front front'
  · exact lacks' ((shorter.map key).subset has)
  · exact lacks ((longer.map key).subset has')

/-- Of the items of a list, the first one of each key is kept, in the order of the list. -/
structure Firsts (key : α → β) (items kept : List α) : Prop where
  complete : ∀ item ∈ items, key item ∈ kept.map key
  first : ∀ item ∈ kept, (items.find? fun other => key other = key item) = some item
  distinct : (kept.map key).Nodup
  ordered : kept.Pairwise (OccursBefore key items)

namespace Firsts

theorem mem (firsts : Firsts key items kept) {item : α} (inside : item ∈ kept) : item ∈ items :=
  List.mem_of_find?_eq_some (firsts.first item inside)

theorem nil : Firsts key [] [] where
  complete := by simp
  first := by simp
  distinct := List.nodup_nil
  ordered := .nil

/-- The first item is kept, and of the rest what has another key is left. -/
theorem cons {item : α} {rest : List α}
    (firsts : Firsts key (rest.filter fun other => key other ≠ key item) kept) :
    Firsts key (item :: rest) (item :: kept) := by
  have other : ∀ later ∈ kept, key later ≠ key item := fun later inside =>
    of_decide_eq_true (List.mem_filter.mp (firsts.mem inside)).2
  refine ⟨?_, ?_, ?_, ?_⟩
  · intro found inside
    rw [List.map_cons, List.mem_cons]
    by_cases same : key found = key item
    · exact Or.inl same
    · obtain rfl | inside := List.mem_cons.mp inside
      · exact absurd rfl same
      · exact Or.inr (firsts.complete found (List.mem_filter.mpr ⟨inside, decide_eq_true same⟩))
  · intro found inside
    obtain rfl | inside := List.mem_cons.mp inside
    · exact List.find?_cons_of_pos (decide_eq_true rfl)
    · have apart := other found inside
      rw [List.find?_cons_of_neg (by simpa using Ne.symm apart), ← firsts.first found inside,
        List.find?_filter]
      congr 1
      funext candidate
      by_cases same : key candidate = key found
      · simp [same, apart]
      · simp [same]
  · rw [List.map_cons, List.nodup_cons]
    refine ⟨fun again => ?_, firsts.distinct⟩
    obtain ⟨later, inside, same⟩ := List.mem_map.mp again
    exact other later inside same
  · refine List.pairwise_cons.mpr ⟨fun later inside => ?_, ?_⟩
    · exact ⟨[item], rest, rfl, by simp, by simpa using other later inside⟩
    · refine firsts.ordered.imp_of_mem fun {a b} _ inside before => ?_
      obtain ⟨earlier, later, split, has, lacks⟩ := before
      obtain ⟨front, back, rfl, rfl, -⟩ := List.filter_eq_append_iff.mp split
      refine ⟨item :: front, back, rfl, ?_, ?_⟩
      · exact List.mem_cons_of_mem _ (((List.filter_sublist).map key).subset has)
      · intro found
        obtain ⟨first, among, same⟩ := List.mem_map.mp found
        have apart := other b inside
        obtain rfl | among := List.mem_cons.mp among
        · exact apart same.symm
        · refine lacks (same ▸ List.mem_map_of_mem (List.mem_filter.mpr ⟨among, ?_⟩))
          exact decide_eq_true (same ▸ apart)

/-- Erasing later duplicates keeps the first item of each key. -/
theorem eraseDupsBy {same : α → α → Bool} (decides : ∀ a b, same a b = decide (key a = key b))
    (items : List α) : Firsts key items (items.eraseDupsBy same) := by
  induction bound : items.length using Nat.strong_induction_on generalizing items with
  | _ bound ih =>
      cases items with
      | nil => exact .nil
      | cons item rest =>
          have shorter := List.length_filter_le (fun other => key other ≠ key item) rest
          have others : (rest.filter fun other => same other item = false) =
              rest.filter fun other => key other ≠ key item := by
            simp [decides]
          rw [List.eraseDupsBy_cons, others]
          exact .cons (ih _ (by simp only [← bound, List.length_cons]; omega) _ rfl)

/-- What depends on the keys alone may be left out before or after. -/
theorem filter {p : α → Bool} (respects : ∀ a b, key a = key b → p a = p b)
    (firsts : Firsts key items kept) : Firsts key (items.filter p) (kept.filter p) := by
  refine ⟨?_, ?_, ?_, ?_⟩
  · intro item inside
    obtain ⟨inside, holds⟩ := List.mem_filter.mp inside
    obtain ⟨found, among, same⟩ := List.mem_map.mp (firsts.complete item inside)
    exact same ▸ List.mem_map_of_mem
      (List.mem_filter.mpr ⟨among, (respects found item same).trans holds⟩)
  · intro item inside
    obtain ⟨inside, holds⟩ := List.mem_filter.mp inside
    rw [List.find?_filter, ← firsts.first item inside]
    congr 1
    funext other
    by_cases same : key other = key item
    · simp [same, respects other item same, holds]
    · simp [same]
  · exact ((List.filter_sublist).map key).nodup firsts.distinct
  · refine (firsts.ordered.filter p).imp_of_mem fun {a b} inside _ before => ?_
    obtain ⟨earlier, later, rfl, has, lacks⟩ := before
    refine ⟨earlier.filter p, later.filter p, List.filter_append _ _, ?_, ?_⟩
    · obtain ⟨found, among, same⟩ := List.mem_map.mp has
      have holds := (List.mem_filter.mp inside).2
      exact same ▸ List.mem_map_of_mem
        (List.mem_filter.mpr ⟨among, (respects found a same).trans holds⟩)
    · exact fun again => lacks (((List.filter_sublist).map key).subset again)

/-- There is one way to keep the first item of each key. -/
theorem eq {kept' : List α} (firsts : Firsts key items kept) (firsts' : Firsts key items kept') :
    kept = kept' := by
  have within : ∀ {kept kept' : List α}, Firsts key items kept → Firsts key items kept' →
      ∀ item ∈ kept, item ∈ kept' := by
    intro kept kept' firsts firsts' item inside
    obtain ⟨found, among, same⟩ := List.mem_map.mp (firsts'.complete item (firsts.mem inside))
    have first := firsts'.first found among
    rw [same, firsts.first item inside] at first
    exact Option.some.inj first ▸ among
  refine List.Perm.eq_of_pairwise ?_ firsts.ordered firsts'.ordered
    ((List.perm_ext_iff_of_nodup firsts.distinct.of_map firsts'.distinct.of_map).mpr fun item =>
      ⟨within firsts firsts' item, within firsts' firsts item⟩)
  exact fun a b _ _ before after => absurd after before.asymm

/-- Where the keys tell all items apart, the items that are kept are the items there are. -/
theorem perm {items' kept' : List α} (firsts : Firsts key items kept)
    (firsts' : Firsts key items' kept') (same : ∀ item, item ∈ items ↔ item ∈ items')
    (apart : ∀ a ∈ items, ∀ b ∈ items, key a = key b → a = b) : kept.Perm kept' := by
  have all : ∀ {items kept : List α}, Firsts key items kept →
      (∀ a ∈ items, ∀ b ∈ items, key a = key b → a = b) → ∀ item, item ∈ kept ↔ item ∈ items := by
    intro items kept firsts apart item
    refine ⟨firsts.mem, fun inside => ?_⟩
    obtain ⟨found, among, same⟩ := List.mem_map.mp (firsts.complete item inside)
    exact apart found (firsts.mem among) item inside same ▸ among
  refine (List.perm_ext_iff_of_nodup firsts.distinct.of_map firsts'.distinct.of_map).mpr
    fun item => ?_
  rw [all firsts apart, same, all firsts' fun a inside b inside' =>
    apart a ((same a).mpr inside) b ((same b).mpr inside')]

end Firsts

end

/-! ### The types that decide -/

instance (type : Descriptor) (name : String) : Decidable (type.Bears name) :=
  inferInstanceAs (Decidable (_ ∨ _))

/-- What tells types apart: the full name and the owning module. -/
def Descriptor.identity (type : Descriptor) : TypeName × String := (type.fullName, type.owner)

namespace Catalog

/-- The types, as registered, that satisfy a category and bear a name. -/
def bearers (catalog : Catalog) (category : Category) (name : String) : List Descriptor :=
  (catalog.entries.map (·.type)).filter fun type =>
    type.category.satisfies category = true ∧ type.Bears name

/-- The bearers of a name that decide what it means: those in preferred modules, or all of them if
all are in secondary ones. -/
def deciders (catalog : Catalog) (category : Category) (name : String) : List Descriptor :=
  (catalog.bearers category name).filter fun type =>
    catalog.originOf type.owner = .preferred ∨
      ∀ other ∈ catalog.bearers category name, catalog.originOf other.owner = .secondary

variable {catalog other : Catalog} {category : Category} {name : String}

theorem firsts_candidates (catalog : Catalog) (category : Category) (name : String) :
    Firsts Descriptor.identity (catalog.bearers category name)
      (catalog.candidates category name) := by
  have named : ((catalog.typesIn category).filter fun type =>
      type.fullName.text = name || (!name.toList.contains '.' && type.short = name)) =
      catalog.bearers category name := by
    rw [typesIn, bearers, List.filter_map, List.filter_map, List.filter_filter]
    congr 2
    funext entry
    simp [Descriptor.Bears, Bool.and_comm]
  rw [candidates, named]
  exact .eraseDupsBy (fun a b => by simp [Descriptor.identity]) _

theorem originOf_eq_secondary_iff {owner : String} :
    catalog.originOf owner = .secondary ↔ catalog.originOf owner ≠ .preferred := by
  cases catalog.originOf owner <;> simp

/-- Erasing duplicates first and separating the preferred types afterwards leaves the first
registration of each deciding type. -/
theorem firsts_shadowed {types kept : List Descriptor}
    (firsts : Firsts Descriptor.identity types kept) (catalog : Catalog) :
    Firsts Descriptor.identity
      (types.filter fun type => catalog.originOf type.owner = .preferred ∨
        ∀ other ∈ types, catalog.originOf other.owner = .secondary)
      (catalog.shadowed kept).2 := by
  have owners : ∀ a b : Descriptor, a.identity = b.identity → a.owner = b.owner :=
    fun _ _ same => congrArg Prod.snd same
  by_cases none : ∀ type ∈ kept, catalog.originOf type.owner = .secondary
  · have secondary : ∀ type ∈ types, catalog.originOf type.owner = .secondary := by
      intro type inside
      obtain ⟨found, among, same⟩ := List.mem_map.mp (firsts.complete type inside)
      exact owners found type same ▸ none found among
    have left : (catalog.shadowed kept).2 = kept := by
      simp +contextual [shadowed, none]
    have all : (types.filter fun type => catalog.originOf type.owner = .preferred ∨
        ∀ other ∈ types, catalog.originOf other.owner = .secondary) = types :=
      List.filter_eq_self.mpr fun type _ => decide_eq_true (Or.inr secondary)
    rw [left, all]
    exact firsts
  · obtain ⟨type, among, preferred⟩ : ∃ type ∈ kept, catalog.originOf type.owner = .preferred := by
      simpa [originOf_eq_secondary_iff] using none
    have left : (catalog.shadowed kept).2 =
        kept.filter fun type => catalog.originOf type.owner = .preferred := by
      rw [shadowed, if_neg]
      intro empty
      have found : type ∈ kept.filter fun type => catalog.originOf type.owner = .preferred :=
        List.mem_filter.mpr ⟨among, decide_eq_true preferred⟩
      rw [List.isEmpty_iff.mp empty] at found
      cases found
    have few : (types.filter fun type => catalog.originOf type.owner = .preferred ∨
        ∀ other ∈ types, catalog.originOf other.owner = .secondary) =
        types.filter fun type => catalog.originOf type.owner = .preferred := by
      refine List.filter_congr fun other inside => decide_eq_decide.mpr (or_iff_left ?_)
      intro secondary
      rw [secondary type (firsts.mem among)] at preferred
      cases preferred
    rw [left, few]
    exact firsts.filter fun a b same => by rw [owners a b same]

/-- What a scan of the catalog is left with. -/
theorem firsts_deciders (catalog : Catalog) (category : Category) (name : String) :
    Firsts Descriptor.identity (catalog.deciders category name)
      (catalog.shadowed (catalog.candidates category name)).2 :=
  firsts_shadowed (catalog.firsts_candidates category name) catalog

/-! ### Other orders of registration -/

section

variable (distinct : (catalog.entries.map (·.type.fullName)).Nodup)
include distinct

theorem eq_of_fullName {a b : Descriptor} (inside : a ∈ catalog.entries.map (·.type))
    (inside' : b ∈ catalog.entries.map (·.type)) (same : a.fullName = b.fullName) : a = b := by
  obtain ⟨entry, among, rfl⟩ := List.mem_map.mp inside
  obtain ⟨entry', among', rfl⟩ := List.mem_map.mp inside'
  rw [List.inj_on_of_nodup_map distinct among among' same]

theorem lookup?_eq_some_iff {type : Descriptor} :
    catalog.lookup? name = some type ↔
      type ∈ catalog.entries.map (·.type) ∧ type.fullName.text = name := by
  have first : ∀ type, catalog.lookup? name = some type →
      type ∈ catalog.entries.map (·.type) ∧ type.fullName.text = name := by
    intro type looked
    obtain ⟨entry, found, rfl⟩ := Option.map_eq_some_iff.mp looked
    exact ⟨List.mem_map_of_mem (List.mem_of_find?_eq_some found), by
      simpa using List.find?_some found⟩
  refine ⟨first type, ?_⟩
  rintro ⟨inside, full⟩
  cases looked : catalog.lookup? name with
  | none =>
      obtain ⟨entry, among, rfl⟩ := List.mem_map.mp inside
      have missing := List.find?_eq_none.mp (Option.map_eq_none_iff.mp looked) entry among
      exact absurd (decide_eq_true full) missing
  | some other =>
      obtain ⟨inside', full'⟩ := first other looked
      exact congrArg some (eq_of_fullName distinct inside' inside
        (congrArg TypeName.mk (full'.trans full.symm)))

end

/-- The same modules, and the same types in some order. -/
structure Shuffles (other catalog : Catalog) : Prop where
  modules : other.modules = catalog.modules
  entries : other.entries.Perm catalog.entries

namespace Shuffles

variable (shuffles : other.Shuffles catalog)
include shuffles

theorem originOf (owner : String) : other.originOf owner = catalog.originOf owner := by
  rw [Catalog.originOf, shuffles.modules]
  rfl

theorem bearers : (other.bearers category name).Perm (catalog.bearers category name) :=
  (shuffles.entries.map _).filter _

theorem mem_deciders_iff (type : Descriptor) :
    type ∈ other.deciders category name ↔ type ∈ catalog.deciders category name := by
  simp only [deciders, List.mem_filter, shuffles.bearers.mem_iff, shuffles.originOf]

theorem unknownType : other.unknownType category name = catalog.unknownType category name := by
  have known : ((other.typesIn category).map Descriptor.short).Perm
      ((catalog.typesIn category).map Descriptor.short) :=
    ((shuffles.entries.filter _).map _).map _
  rw [Catalog.unknownType, Catalog.unknownType,
    Suggestion.closest_congr name fun short => known.mem_iff]

variable (distinct : (catalog.entries.map (·.type.fullName)).Nodup)
include distinct

theorem lookup? : other.lookup? name = catalog.lookup? name := by
  have distinct' : (other.entries.map (·.type.fullName)).Nodup :=
    (shuffles.entries.map _).nodup_iff.mpr distinct
  refine Option.ext fun type => ?_
  rw [lookup?_eq_some_iff distinct', lookup?_eq_some_iff distinct,
    (shuffles.entries.map _).mem_iff]

/-- The deciding types that are listed are the same, in some order. -/
theorem perm_shadowed : (other.shadowed (other.candidates category name)).2.Perm
    (catalog.shadowed (catalog.candidates category name)).2 := by
  refine (other.firsts_deciders category name).perm (catalog.firsts_deciders category name)
    shuffles.mem_deciders_iff fun a inside b inside' same => ?_
  have registered : ∀ type ∈ other.deciders category name,
      type ∈ catalog.entries.map (·.type) := fun type inside =>
    (List.mem_filter.mp (List.mem_filter.mp ((shuffles.mem_deciders_iff type).mp inside)).1).1
  exact eq_of_fullName distinct (registered a inside) (registered b inside')
    (congrArg Prod.fst same)

end Shuffles
end Catalog

/-! ### The rule -/

namespace TypeCache

/-- A type is remembered under both its names, and nothing else is. -/
structure HoldsOnly (cache : TypeCache) (category : Category) (type : Descriptor) : Prop where
  full : cache.byFullName = [((category, type.fullName.text), type)]
  short : cache.byShortName = [((category, type.short), type)]

theorem holdsOnly_remember (category : Category) (type : Descriptor) :
    (({} : TypeCache).remember category type).HoldsOnly category type := ⟨rfl, rfl⟩

/-- Two calls for a name are answered alike, but for the order in which an ambiguity lists the
types. -/
inductive Alike (name : String) : Except Report Descriptor → Except Report Descriptor → Prop
  | same (outcome : Except Report Descriptor) : Alike name outcome outcome
  | reordered {types types' : List Descriptor} (perm : types.Perm types') :
      Alike name (.error { error := Catalog.ambiguousType name types })
        (.error { error := Catalog.ambiguousType name types' })

/-- What is made of the deciding types of a name. -/
def verdict (catalog : Catalog) (category : Category) (name : String) :
    List Descriptor → Except Report Descriptor
  | [] => .error { error := catalog.unknownType category name }
  | [type] => .ok type
  | several => .error { error := Catalog.ambiguousType name several }

variable {catalog other : Catalog} {category : Category} {name : String}

theorem found_direct {type : Descriptor} (looked : catalog.lookup? name = some type)
    (fits : type.category.satisfies category = true) : found catalog category name = .ok type := by
  rw [found, looked, Option.filter_some, if_pos fits]

theorem found_scanned (misses : ∀ type, catalog.lookup? name = some type →
      type.category.satisfies category = false) :
    found catalog category name =
      verdict catalog category name (catalog.shadowed (catalog.candidates category name)).2 := by
  have none : (catalog.lookup? name).filter (fun type => type.category.satisfies category) =
      none := by
    simpa [Option.filter_eq_none_iff] using misses
  rw [found, none]
  rfl

theorem alike_verdict (shuffles : other.Shuffles catalog) {types types' : List Descriptor}
    (perm : types'.Perm types) :
    Alike name (verdict catalog category name types) (verdict other category name types') := by
  cases types with
  | nil =>
      rw [perm.eq_nil, verdict, verdict, shuffles.unknownType]
      exact .same _
  | cons first rest =>
      cases rest with
      | nil =>
          rw [List.perm_singleton.mp perm]
          exact .same _
      | cons second more =>
          obtain ⟨first', second', more', rfl⟩ : ∃ a b c, types' = a :: b :: c := by
            have long := perm.length_eq
            match types', long with
            | a :: b :: c, _ => exact ⟨a, b, c, rfl⟩
          exact .reordered perm.symm

theorem alike_fresh (shuffles : other.Shuffles catalog)
    (distinct : (catalog.entries.map (·.type.fullName)).Nodup) (call : Call) :
    Alike (Text.trim call.2) (fresh catalog call) (fresh other call) := by
  by_cases blank : Text.trim call.2 = ""
  · rw [fresh, fresh, answer, answer, resolve_blank _ _ call blank, resolve_blank _ _ call blank]
    exact .same _
  · rw [fresh_eq _ call blank, fresh_eq _ call blank]
    by_cases direct : ∃ type, catalog.lookup? (Text.trim call.2) = some type ∧
        type.category.satisfies call.1 = true
    · obtain ⟨type, looked, fits⟩ := direct
      rw [found_direct looked fits, found_direct ((shuffles.lookup? distinct).trans looked) fits]
      exact .same _
    · have misses : ∀ type, catalog.lookup? (Text.trim call.2) = some type →
          type.category.satisfies call.1 = false := by
        intro type looked
        exact Bool.eq_false_iff.mpr fun fits => direct ⟨type, looked, fits⟩
      rw [found_scanned misses, found_scanned (by rwa [shuffles.lookup? distinct])]
      exact alike_verdict shuffles (shuffles.perm_shadowed distinct)

theorem after_eq (catalog : Catalog) (call : Call) (named : Text.trim call.2 ≠ "") :
    ({} : TypeCache).after catalog call =
      match found catalog call.1 (Text.trim call.2) with
      | .ok type => ({} : TypeCache).remember call.1 type
      | .error _ => {} := by
  have empty : ({} : TypeCache).remembered? call.1 (Text.trim call.2) = none := by
    simp [remembered?, TypeIndex.get?]
  rw [after, resolve_result _ _ call named, empty]
  cases found catalog call.1 (Text.trim call.2) <;> rfl

/-- What a name means where nothing is remembered. A blank name is an invalid argument. The first
type of that full name is the answer if it fits the category. Otherwise the deciding types are
listed, each once and in the order of the catalog: a single one is the answer, none is reported as
not found, and several are reported as ambiguous, with the full name and the module of each. An
answer is remembered under both its names, and a failure is not remembered. Where all full names
differ, the types may be registered in any order: only an ambiguity may list them in another one. -/
theorem resolution_by_partition (catalog : Catalog) (category : Category) (text : String) :
    let name := Text.trim text
    let outcome := fresh catalog (category, text)
    let cache := ({} : TypeCache).after catalog (category, text)
    let direct := catalog.entries.find? fun entry => entry.type.fullName.text = name
    (name = "" → outcome = .error { error := .invalidArgument "Missing type name" } ∧
      cache = {}) ∧
    (name ≠ "" →
      (∀ entry, direct = some entry → entry.type.category.satisfies category = true →
        outcome = .ok entry.type ∧ cache.HoldsOnly category entry.type) ∧
      ((∀ entry, direct = some entry → entry.type.category.satisfies category = false) →
        ∃ types, Firsts Descriptor.identity (catalog.deciders category name) types ∧
          (types = [] →
            let known := (catalog.typesIn category).map Descriptor.short
            let error : Error := .notFound (Suggestion.withSuggestions
              s!"type '{name}' ({category.name}) not found" (Suggestion.closest name known))
            outcome = .error { error } ∧ cache = {}) ∧
          (∀ type, types = [type] → outcome = .ok type ∧ cache.HoldsOnly category type) ∧
          (2 ≤ types.length →
            let labels := types.map fun type => s!"{type.fullName.text} ({type.owner})"
            let count := types.length
            let listed := String.intercalate ", " labels
            let error : Error := .ambiguous
              s!"type name '{name}' matches {count} types: {listed}. Use a fully-qualified name"
              labels
            outcome = .error { error } ∧ cache = {}))) ∧
    ((catalog.entries.map (·.type.fullName)).Nodup →
      ∀ other : Catalog, other.Shuffles catalog →
        Alike name outcome (fresh other (category, text))) := by
  dsimp only
  refine ⟨fun blank => ?_, fun named => ?_, fun distinct other shuffles => ?_⟩
  · rw [fresh, answer, after, resolve_blank _ _ (category, text) blank]
    exact ⟨rfl, rfl⟩
  · rw [fresh_eq _ (category, text) named, after_eq _ (category, text) named]
    refine ⟨fun entry looked fits => ?_, fun misses => ?_⟩
    · rw [found_direct (Option.map_eq_some_iff.mpr ⟨entry, looked, rfl⟩) fits]
      exact ⟨rfl, holdsOnly_remember category entry.type⟩
    · refine ⟨_, catalog.firsts_deciders category (Text.trim text), ?_⟩
      have misses' : ∀ type, catalog.lookup? (Text.trim text) = some type →
          type.category.satisfies category = false := by
        intro type looked
        obtain ⟨entry, first, rfl⟩ := Option.map_eq_some_iff.mp looked
        exact misses entry first
      rw [found_scanned misses']
      cases (catalog.shadowed (catalog.candidates category (Text.trim text))).2 with
      | nil => exact ⟨fun _ => ⟨rfl, rfl⟩, by simp, by simp⟩
      | cons first rest =>
          cases rest with
          | nil =>
              refine ⟨by simp, ?_, by simp⟩
              rintro _ ⟨⟩
              exact ⟨rfl, holdsOnly_remember category first⟩
          | cons second more => exact ⟨by simp, by simp, fun _ => ⟨rfl, rfl⟩⟩
  · exact alike_fresh shuffles distinct (category, text)

/-- Three lamps share a short name, which is also the full name of an asset type. The asset type
does not fit, and the two lamps of preferred modules are listed, in another order of registration
too. -/
theorem resolution_by_partition_of_lamps :
    let asset : Descriptor := ⟨⟨"Lamp"⟩, "Game", .resource⟩
    let engine : Descriptor := ⟨⟨"Engine.Lamp"⟩, "Engine", .capability⟩
    let game : Descriptor := ⟨⟨"Game.Lamp"⟩, "Game", .capability⟩
    let extra : Descriptor := ⟨⟨"Extras.Lamp"⟩, "Extras", .capability⟩
    let catalog (types : List Descriptor) : Catalog :=
      { modules := [("Game", .preferred), ("Extras", .preferred), ("Engine", .secondary)]
        entries := types.map fun type => ⟨type, none⟩ }
    let lamps := catalog [asset, engine, game, extra]
    let listed := "Game.Lamp (Game), Extras.Lamp (Extras)"
    let error : Error := .ambiguous
      s!"type name 'Lamp' matches 2 types: {listed}. Use a fully-qualified name"
      ["Game.Lamp (Game)", "Extras.Lamp (Extras)"]
    fresh lamps (.capability, " Lamp\n") = .error { error } ∧
      ({} : TypeCache).after lamps (.capability, " Lamp\n") = {} ∧
      Alike "Lamp" (fresh lamps (.capability, " Lamp\n"))
        (fresh (catalog [extra, asset, engine, game]) (.capability, " Lamp\n")) := by
  intro asset engine game extra catalog lamps listed error
  have name : Text.trim " Lamp\n" = "Lamp" := by decide +kernel
  have rule := resolution_by_partition lamps .capability " Lamp\n"
  rw [name] at rule
  obtain ⟨-, found, ordered⟩ := rule
  obtain ⟨types, kept, -, -, several⟩ := (found (by decide)).2 fun entry first => by
    cases first
    rfl
  have scanned : (lamps.shadowed (lamps.candidates .capability "Lamp")).2 = [game, extra] := by
    decide +kernel
  obtain rfl : types = [game, extra] :=
    scanned ▸ kept.eq (lamps.firsts_deciders .capability "Lamp")
  obtain ⟨outcome, cache⟩ := several (by decide)
  have shuffled : [extra, asset, engine, game].Perm [asset, engine, game, extra] := by decide
  refine ⟨outcome.trans (by decide +kernel), cache, ?_⟩
  exact ordered (by decide +kernel) _ ⟨rfl, shuffled.map fun type => CatalogEntry.mk type none⟩

end TypeCache
end SceneEdit
