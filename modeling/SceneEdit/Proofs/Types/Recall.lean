import Mathlib.Data.List.Nodup
import Mathlib.Data.List.TakeWhile
import SceneEdit.Types.Resolution

/-!
# What remembered types change

A session asks for types one call after another, and every type that is answered is remembered
under both its names. So a later call is answered with the first type that an earlier one was
answered with and that bears the name asked for, and only without such a type is it answered as
from an empty cache.

The two need not agree. A type asked for by its full name is remembered under its short name too,
also where that short name alone is ambiguous or means a type of a preferred module. Which histories
change an answer, and which catalogs rule such histories out, is stated exactly below.
-/

namespace SceneEdit

/-- Whether a type may be meant by a name: by its full name, or by its short name if the name has
no dot. -/
def Descriptor.Bears (type : Descriptor) (name : String) : Prop :=
  type.fullName.text = name ∨ (name.toList.contains '.' = false ∧ type.short = name)

/-- The first of the types asked for in a category whose `key` is a name. -/
def firstNamed? (key : Descriptor → String) (types : List (Category × Descriptor))
    (category : Category) (name : String) : Option Descriptor :=
  (types.find? fun entry => entry.1 = category ∧ key entry.2 = name).map Prod.snd

theorem firstNamed?_append (key : Descriptor → String) (types more : List (Category × Descriptor))
    (category : Category) (name : String) :
    firstNamed? key (types ++ more) category name =
      (firstNamed? key types category name).or (firstNamed? key more category name) := by
  simp only [firstNamed?, List.find?_append, Option.map_or]

theorem firstNamed?_singleton (key : Descriptor → String) (category category' : Category)
    (type : Descriptor) (name : String) :
    firstNamed? key [(category, type)] category' name =
      if (category, key type) = (category', name) then some type else none := by
  simp only [firstNamed?, List.find?_singleton, decide_eq_true_eq, Prod.mk.injEq]
  split <;> rfl

theorem mem_of_firstNamed? {key : Descriptor → String} {types : List (Category × Descriptor)}
    {category : Category} {name : String} {type : Descriptor}
    (found : firstNamed? key types category name = some type) :
    (category, type) ∈ types ∧ key type = name := by
  obtain ⟨⟨category', type'⟩, first, rfl⟩ := Option.map_eq_some_iff.mp found
  obtain ⟨rfl, same⟩ : category' = category ∧ key type' = name := by
    simpa using List.find?_some first
  exact ⟨List.mem_of_find?_eq_some first, same⟩

/-- A type asked for before is never the first again. -/
theorem firstNamed?_append_mem (key : Descriptor → String) {types : List (Category × Descriptor)}
    {entry : Category × Descriptor} (member : entry ∈ types) (category : Category)
    (name : String) :
    firstNamed? key (types ++ [entry]) category name = firstNamed? key types category name := by
  unfold firstNamed?
  rw [List.find?_append]
  cases found : types.find? fun entry => entry.1 = category ∧ key entry.2 = name with
  | some other => rfl
  | none =>
      have other := List.find?_eq_none.mp found entry member
      rw [List.find?_singleton, if_neg other]
      rfl

namespace TypeIndex

theorem get?_insertNew (index : TypeIndex) (category category' : Category) (name name' : String)
    (type : Descriptor) :
    (index.insertNew category name type).get? category' name' =
      (index.get? category' name').or
        (if (category, name) = (category', name') then some type else none) := by
  rw [insertNew]
  split
  case isTrue taken =>
    split
    · rename_i same
      cases same
      obtain ⟨known, found⟩ := Option.isSome_iff_exists.mp taken
      rw [found, Option.some_or]
    · rw [Option.or_none]
  case isFalse free =>
    simp only [get?, List.find?_append, List.find?_singleton, Option.map_or, decide_eq_true_eq]
    congr 1
    split <;> rfl

/-- An index that has, under each name, the first of the types whose `key` is the name. -/
def Holds (index : TypeIndex) (key : Descriptor → String)
    (types : List (Category × Descriptor)) : Prop :=
  ∀ category name, index.get? category name = firstNamed? key types category name

theorem Holds.insertNew {index : TypeIndex} {key : Descriptor → String}
    {types : List (Category × Descriptor)} (holds : index.Holds key types) (category : Category)
    (type : Descriptor) :
    (index.insertNew category (key type) type).Holds key (types ++ [(category, type)]) := by
  intro category' name
  rw [get?_insertNew, holds, firstNamed?_append, firstNamed?_singleton]

theorem Holds.again {index : TypeIndex} {key : Descriptor → String}
    {types : List (Category × Descriptor)} (holds : index.Holds key types)
    {entry : Category × Descriptor} (member : entry ∈ types) :
    index.Holds key (types ++ [entry]) := by
  intro category name
  rw [holds, firstNamed?_append_mem key member]

end TypeIndex

namespace TypeCache

/-! ### Calls -/

/-- One call: a category and the text of a name. -/
abbrev Call := Category × String

/-- What a call is answered with. -/
def answer (cache : TypeCache) (catalog : Catalog) (call : Call) : Except Report Descriptor :=
  (cache.resolve catalog call.1 call.2).result.map Prod.fst

/-- What a call is answered with when nothing is remembered. -/
def fresh (catalog : Catalog) (call : Call) : Except Report Descriptor :=
  ({} : TypeCache).answer catalog call

/-- The cache after a call. -/
def after (cache : TypeCache) (catalog : Catalog) (call : Call) : TypeCache :=
  match (cache.resolve catalog call.1 call.2).result with
  | .ok (_, remembering) => remembering
  | .error _ => cache

/-- The types that calls are answered with, each with the category it was asked for. -/
def answered (catalog : Catalog) : TypeCache → List Call → List (Category × Descriptor)
  | _, [] => []
  | cache, call :: rest =>
    ((cache.answer catalog call).toOption.map fun type => (call.1, type)).toList ++
      answered catalog (cache.after catalog call) rest

/-- The cache after a run of calls. -/
def afterAll (catalog : Catalog) (calls : List Call) : TypeCache :=
  calls.foldl (fun cache call => cache.after catalog call) {}

/-- The first type answered that has the full name, else, for a name without dots, the first that
has the short name. -/
def recalled? (types : List (Category × Descriptor)) (call : Call) : Option Descriptor :=
  let name := Text.trim call.2
  if name = "" then none
  else match firstNamed? (·.fullName.text) types call.1 name with
    | some type => some type
    | none =>
      if name.toList.contains '.' then none else firstNamed? Descriptor.short types call.1 name

theorem recalled?_spec {types : List (Category × Descriptor)} {call : Call} {type : Descriptor}
    (found : recalled? types call = some type) :
    Text.trim call.2 ≠ "" ∧ (call.1, type) ∈ types ∧ type.Bears (Text.trim call.2) := by
  unfold recalled? at found
  dsimp only at found
  split at found
  · cases found
  · rename_i named
    refine ⟨named, ?_⟩
    split at found
    · rename_i full
      cases found
      obtain ⟨member, same⟩ := mem_of_firstNamed? full
      exact ⟨member, Or.inl same⟩
    · split at found
      · cases found
      · rename_i plain
        obtain ⟨member, same⟩ := mem_of_firstNamed? found
        exact ⟨member, Or.inr ⟨by simpa using plain, same⟩⟩

theorem recalled?_of_bears {call : Call} {type : Descriptor} (named : Text.trim call.2 ≠ "")
    (bears : type.Bears (Text.trim call.2)) : recalled? [(call.1, type)] call = some type := by
  rw [recalled?]
  simp only [if_neg named, firstNamed?_singleton, Prod.mk.injEq, true_and]
  rcases bears with full | ⟨plain, short⟩
  · rw [if_pos full]
  · by_cases full : type.fullName.text = Text.trim call.2
    · rw [if_pos full]
    · simp only [if_neg full, plain, if_pos short]
      rfl

/-! ### One call -/

theorem resolve_blank (cache : TypeCache) (catalog : Catalog) (call : Call)
    (blank : Text.trim call.2 = "") :
    (cache.resolve catalog call.1 call.2).result = .error { error := .missing "type name" } := by
  rw [resolve, if_pos blank]
  rfl

/-- What a catalog has under a name: the type of that full name, else the one candidate. -/
def found (catalog : Catalog) (category : Category) (name : String) : Except Report Descriptor :=
  match (catalog.lookup? name).filter fun type => type.category.satisfies category with
  | some type => .ok type
  | none =>
    match (catalog.shadowed (catalog.candidates category name)).2 with
    | [] => .error { error := catalog.unknownType category name }
    | [type] => .ok type
    | several => .error { error := Catalog.ambiguousType name several }

/-- A type that is not remembered is found in the catalog, and then remembered. -/
theorem resolve_result (cache : TypeCache) (catalog : Catalog) (call : Call)
    (named : Text.trim call.2 ≠ "") :
    (cache.resolve catalog call.1 call.2).result =
      match cache.remembered? call.1 (Text.trim call.2) with
      | some (type, _) => .ok (type, cache)
      | none => (found catalog call.1 (Text.trim call.2)).map
        fun type => (type, cache.remember call.1 type) := by
  rw [resolve, found]
  simp only [if_neg named]
  cases cache.remembered? call.1 (Text.trim call.2) with
  | some hit => rfl
  | none =>
      cases (catalog.lookup? (Text.trim call.2)).filter
        fun type => type.category.satisfies call.1 with
      | some type => rfl
      | none =>
          rw [scan]
          dsimp only
          rcases (catalog.shadowed (catalog.candidates call.1 (Text.trim call.2))).2 with
            _ | ⟨type, _ | ⟨other, more⟩⟩ <;> rfl

theorem fresh_eq (catalog : Catalog) (call : Call) (named : Text.trim call.2 ≠ "") :
    fresh catalog call = found catalog call.1 (Text.trim call.2) := by
  have empty : ({} : TypeCache).remembered? call.1 (Text.trim call.2) = none := by
    simp [remembered?, TypeIndex.get?]
  rw [fresh, answer, resolve_result _ _ call named, empty]
  cases found catalog call.1 (Text.trim call.2) <;> rfl

/-! ### Runs of calls -/

/-- Both indices hold the types answered. -/
structure Remembers (cache : TypeCache) (types : List (Category × Descriptor)) : Prop where
  full : cache.byFullName.Holds (·.fullName.text) types
  short : cache.byShortName.Holds Descriptor.short types

namespace Remembers

variable {cache : TypeCache} {types : List (Category × Descriptor)}

theorem empty : Remembers {} [] where
  full _ _ := rfl
  short _ _ := rfl

theorem remember (h : Remembers cache types) (category : Category) (type : Descriptor) :
    Remembers (cache.remember category type) (types ++ [(category, type)]) where
  full := h.full.insertNew category type
  short := h.short.insertNew category type

theorem again (h : Remembers cache types) {entry : Category × Descriptor}
    (member : entry ∈ types) : Remembers cache (types ++ [entry]) where
  full := h.full.again member
  short := h.short.again member

theorem remembered?_eq (h : Remembers cache types) {call : Call} (named : Text.trim call.2 ≠ "") :
    (cache.remembered? call.1 (Text.trim call.2)).map Prod.fst = recalled? types call := by
  rw [remembered?, recalled?]
  simp only [if_neg named, h.full call.1, h.short call.1]
  cases firstNamed? (·.fullName.text) types call.1 (Text.trim call.2) with
  | some type => rfl
  | none =>
      dsimp only
      split
      · rfl
      · rw [Option.map_map]
        exact Option.map_id'

/-- A call is answered with the type that is recalled, else as from an empty cache. -/
theorem answer_eq (h : Remembers cache types) (catalog : Catalog) (call : Call) :
    cache.answer catalog call =
      match recalled? types call with
      | some type => .ok type
      | none => fresh catalog call := by
  by_cases blank : Text.trim call.2 = ""
  · have none : recalled? types call = none := by simp [recalled?, blank]
    rw [none, fresh, answer, answer, resolve_blank _ _ call blank, resolve_blank _ _ call blank]
  · rw [← h.remembered?_eq blank, answer, resolve_result _ _ call blank, fresh_eq _ call blank]
    cases cache.remembered? call.1 (Text.trim call.2) with
    | some hit => rfl
    | none => cases found catalog call.1 (Text.trim call.2) <;> rfl

/-- One call: what it is answered with joins what is remembered. -/
theorem after (h : Remembers cache types) (catalog : Catalog) (call : Call) :
    Remembers (cache.after catalog call)
      (types ++ ((cache.answer catalog call).toOption.map fun type => (call.1, type)).toList) := by
  rw [TypeCache.after, answer]
  by_cases blank : Text.trim call.2 = ""
  · rw [resolve_blank _ _ call blank]
    exact (List.append_nil types).symm ▸ h
  · rw [resolve_result _ _ call blank]
    have recalls := h.remembered?_eq blank
    cases hit : cache.remembered? call.1 (Text.trim call.2) with
    | some known =>
        rw [hit, Option.map_some] at recalls
        exact h.again (recalled?_spec recalls.symm).2.1
    | none =>
        cases found catalog call.1 (Text.trim call.2) with
        | error report => exact (List.append_nil types).symm ▸ h
        | ok type => exact h.remember call.1 type

/-- A run of calls: everything answered joins what is remembered. -/
theorem afterAll (h : Remembers cache types) (catalog : Catalog) (calls : List Call) :
    Remembers (calls.foldl (fun cache call => cache.after catalog call) cache)
      (types ++ answered catalog cache calls) := by
  induction calls generalizing cache types with
  | nil => exact (List.append_nil types).symm ▸ h
  | cons call rest ih =>
      have next := ih (h.after catalog call)
      rwa [List.append_assoc] at next

end Remembers

/-- After any run, a call is answered with the first type that the run was answered with and that
bears the name, else as from an empty cache. -/
theorem answer_afterAll (catalog : Catalog) (calls : List Call) (call : Call) :
    (afterAll catalog calls).answer catalog call =
      match recalled? (answered catalog {} calls) call with
      | some type => .ok type
      | none => fresh catalog call :=
  (Remembers.empty.afterAll catalog calls).answer_eq catalog call

/-! ### Catalogs whose types answer to their own names -/

/-- Every type that some call finds is also what calls by its own names find. -/
def SelfNamed (catalog : Catalog) : Prop :=
  ∀ category text type, fresh catalog (category, text) = .ok type →
    ∀ name, Text.trim name ≠ "" → type.Bears (Text.trim name) →
      fresh catalog (category, name) = .ok type

/-- Every type that a run is answered with was found from an empty cache under some name. -/
theorem fresh_of_mem_answered {catalog : Catalog} (calls : List Call)
    {cache : TypeCache} {types : List (Category × Descriptor)} (h : Remembers cache types)
    (found : ∀ entry ∈ types, ∃ text, fresh catalog (entry.1, text) = .ok entry.2) :
    ∀ entry ∈ types ++ answered catalog cache calls,
      ∃ text, fresh catalog (entry.1, text) = .ok entry.2 := by
  induction calls generalizing cache types with
  | nil => exact fun entry member => found entry (by simpa [answered] using member)
  | cons call rest ih =>
      have next := ih (h.after catalog call)
      rw [List.append_assoc] at next
      apply next
      intro entry member
      rcases List.mem_append.mp member with old | new
      · exact found entry old
      · obtain ⟨type, answered, rfl⟩ : ∃ type, cache.answer catalog call = .ok type ∧
            (call.1, type) = entry := by
          cases outcome : cache.answer catalog call <;> simp_all [Except.toOption]
        rw [h.answer_eq] at answered
        split at answered
        · rename_i known recalls
          cases answered
          exact found _ (recalled?_spec recalls).2.1
        · exact ⟨call.2, answered⟩

theorem answer_eq_fresh_iff (catalog : Catalog) (calls : List Call) (call : Call) :
    (afterAll catalog calls).answer catalog call = fresh catalog call ↔
      ∀ type, recalled? (answered catalog {} calls) call = some type →
        fresh catalog call = .ok type := by
  rw [answer_afterAll]
  cases recalled? (answered catalog {} calls) call with
  | none => simp
  | some type => simp [eq_comm]

theorem transparent_iff_selfNamed (catalog : Catalog) :
    (∀ calls call, (afterAll catalog calls).answer catalog call = fresh catalog call) ↔
      SelfNamed catalog := by
  constructor
  · intro transparent category text type found name named bears
    have once : answered catalog {} [(category, text)] = [(category, type)] := by
      have first : ({} : TypeCache).answer catalog (category, text) = .ok type := found
      simp only [answered, first]
      rfl
    have recalls := (answer_eq_fresh_iff catalog [(category, text)] (category, name)).mp
      (transparent _ _) type
    apply recalls
    rw [once]
    exact recalled?_of_bears named bears
  · intro own calls call
    apply (answer_eq_fresh_iff catalog calls call).mpr
    intro type recalls
    obtain ⟨named, member, bears⟩ := recalled?_spec recalls
    obtain ⟨text, found⟩ := fresh_of_mem_answered calls Remembers.empty (by simp) _ member
    exact own call.1 text type found call.2 named bears

/-- Remembered types change an answer exactly when a type is recalled that an empty cache does not
answer with, and no run of calls changes any answer exactly when all types of the catalog answer to
their own names. -/
theorem resolution_transparent_iff (catalog : Catalog) :
    (∀ calls call, (afterAll catalog calls).answer catalog call = fresh catalog call ↔
      ∀ type, recalled? (answered catalog {} calls) call = some type →
        fresh catalog call = .ok type) ∧
    ((∀ calls call, (afterAll catalog calls).answer catalog call = fresh catalog call) ↔
      SelfNamed catalog) :=
  ⟨answer_eq_fresh_iff catalog, transparent_iff_selfNamed catalog⟩

/-- A short name that two preferred types share is ambiguous, but not after one of them was asked
for by its full name; and a secondary type asked for by its full name takes the short name away from
the preferred one. -/
theorem resolution_not_transparent :
    let entry (name owner : String) : CatalogEntry := ⟨⟨⟨name⟩, owner, .capability⟩, none⟩
    let catalog : Catalog :=
      { modules := [("Game", .preferred), ("Extras", .preferred), ("Engine", .secondary)]
        entries := [entry "Game.Mover" "Game", entry "Extras.Mover" "Extras",
          entry "Engine.Health" "Engine", entry "Game.Health" "Game"] }
    let cache := afterAll catalog [(.capability, "Game.Mover"), (.capability, "Engine.Health")]
    ((cache.answer catalog (.capability, "Mover")).toOption =
        some ⟨⟨"Game.Mover"⟩, "Game", .capability⟩ ∧
      (fresh catalog (.capability, "Mover")).toOption = none) ∧
    ((cache.answer catalog (.capability, "Health")).toOption =
        some ⟨⟨"Engine.Health"⟩, "Engine", .capability⟩ ∧
      (fresh catalog (.capability, "Health")).toOption =
        some ⟨⟨"Game.Health"⟩, "Game", .capability⟩) := by
  decide

/-! ### Catalogs whose short names differ -/

/-- A name without dots is its own short name. -/
theorem short_eq_self {name : String} (plain : name.toList.contains '.' = false) :
    (⟨name⟩ : TypeName).short = name := by
  have whole : name.toList.reverse.takeWhile (· ≠ '.') = name.toList.reverse := by
    apply List.takeWhile_eq_self_iff.mpr
    intro c member
    have : '.' ∉ name.toList := by simpa using plain
    simpa using fun same : c = '.' => this (same ▸ List.mem_reverse.mp member)
  rw [TypeName.short, whole, List.reverse_reverse, String.ofList_toList]

theorem short_of_bears {type : Descriptor} {name : String} (bears : type.Bears name) :
    type.short = (⟨name⟩ : TypeName).short := by
  rcases bears with rfl | ⟨plain, rfl⟩
  · rfl
  · exact (short_eq_self plain).symm

theorem mem_typesIn {catalog : Catalog} {category : Category} {type : Descriptor} :
    type ∈ catalog.typesIn category ↔
      type ∈ catalog.entries.map (·.type) ∧ type.category.satisfies category = true := by
  simp only [Catalog.typesIn, List.mem_map, List.mem_filter]
  constructor
  · rintro ⟨entry, ⟨member, fits⟩, rfl⟩
    exact ⟨⟨entry, member, rfl⟩, fits⟩
  · rintro ⟨⟨entry, member, rfl⟩, fits⟩
    exact ⟨entry, ⟨member, fits⟩, rfl⟩

theorem mem_of_mem_eraseDupsBy {same : Descriptor → Descriptor → Bool} {type : Descriptor}
    (types : List Descriptor) (member : type ∈ types.eraseDupsBy same) : type ∈ types := by
  induction bound : types.length using Nat.strong_induction_on generalizing types with
  | _ bound ih =>
      cases types with
      | nil => exact member
      | cons first rest =>
          rw [List.eraseDupsBy_cons] at member
          rcases List.mem_cons.mp member with rfl | later
          · exact List.mem_cons_self
          · have shorter := List.length_filter_le (fun other => same other first = false) rest
            have inside := ih _ (by simp only [← bound, List.length_cons]; omega) _ later rfl
            exact List.mem_cons_of_mem _ (List.mem_filter.mp inside).1

theorem mem_of_mem_shadowed {catalog : Catalog} {types : List Descriptor} {type : Descriptor}
    (member : type ∈ (catalog.shadowed types).2) : type ∈ types := by
  unfold Catalog.shadowed at member
  dsimp only at member
  split at member
  · exact (List.mem_filter.mp member).1
  · exact (List.mem_filter.mp member).1

/-- What is found is a type of the category. -/
theorem mem_typesIn_of_found {catalog : Catalog} {category : Category} {name : String}
    {type : Descriptor} (outcome : found catalog category name = .ok type) :
    type ∈ catalog.typesIn category := by
  rw [found] at outcome
  split at outcome
  · rename_i direct looked
    cases outcome
    obtain ⟨known, fits⟩ := Option.filter_eq_some_iff.mp looked
    obtain ⟨entry, first, rfl⟩ := Option.map_eq_some_iff.mp known
    exact mem_typesIn.mpr ⟨List.mem_map_of_mem (List.mem_of_find?_eq_some first), fits⟩
  · split at outcome
    · cases outcome
    · rename_i alone shadowed
      rw [← Except.ok.inj outcome]
      have candidate := mem_of_mem_shadowed (shadowed ▸ List.mem_singleton_self alone)
      exact (List.mem_filter.mp (mem_of_mem_eraseDupsBy _ candidate)).1
    · cases outcome

section

variable {catalog : Catalog} {category : Category} {name : String} {type : Descriptor}
variable (distinct : (catalog.entries.map fun entry => entry.type.short).Nodup)
include distinct

theorem eq_of_bears {other : Descriptor} (member : type ∈ catalog.entries.map (·.type))
    (bears : type.Bears name) (member' : other ∈ catalog.entries.map (·.type))
    (bears' : other.Bears name) : other = type := by
  obtain ⟨entry, inside, rfl⟩ := List.mem_map.mp member
  obtain ⟨entry', inside', rfl⟩ := List.mem_map.mp member'
  have same : entry'.type.short = entry.type.short :=
    (short_of_bears bears').trans (short_of_bears bears).symm
  rw [List.inj_on_of_nodup_map distinct inside' inside same]

theorem candidates_eq_singleton (member : type ∈ catalog.typesIn category)
    (bears : type.Bears name) : catalog.candidates category name = [type] := by
  have nodup : (catalog.typesIn category).Nodup := by
    refine List.Nodup.of_map Descriptor.short ?_
    rw [Catalog.typesIn, List.map_map]
    exact (List.filter_sublist.map _).nodup distinct
  have only : ((catalog.typesIn category).filter fun type =>
      type.fullName.text = name || (!name.toList.contains '.' && type.short = name)) = [type] := by
    refine List.perm_singleton.mp ((List.perm_ext_iff_of_nodup (nodup.filter _)
      (List.nodup_singleton type)).mpr fun other => ?_)
    have named : (other.fullName.text = name || (!name.toList.contains '.' && other.short = name)) =
        true ↔ other.Bears name := by
      simp [Descriptor.Bears]
    rw [List.mem_filter, named, List.mem_singleton]
    constructor
    · rintro ⟨member', bears'⟩
      exact eq_of_bears distinct (mem_typesIn.mp member).1 bears (mem_typesIn.mp member').1 bears'
    · rintro rfl
      exact ⟨member, bears⟩
  rw [Catalog.candidates, only]
  rfl

/-- A name is resolved to the one type that bears it. -/
theorem found_eq_of_bears (member : type ∈ catalog.typesIn category) (bears : type.Bears name) :
    found catalog category name = .ok type := by
  rw [found]
  split
  · rename_i direct looked
    obtain ⟨known, fits⟩ := Option.filter_eq_some_iff.mp looked
    obtain ⟨entry, first, rfl⟩ := Option.map_eq_some_iff.mp known
    have full : entry.type.fullName.text = name := by simpa using List.find?_some first
    rw [eq_of_bears distinct (mem_typesIn.mp member).1 bears
      (List.mem_map_of_mem (List.mem_of_find?_eq_some first)) (Or.inl full)]
  · have shadowed : (catalog.shadowed [type]).2 = [type] := by
      rw [Catalog.shadowed]
      by_cases preferred : catalog.originOf type.owner = .preferred <;> simp [preferred]
    rw [candidates_eq_singleton distinct member bears, shadowed]

theorem selfNamed_of_nodup : SelfNamed catalog := by
  intro category text type outcome name named bears
  have nonblank : Text.trim text ≠ "" := by
    intro blank
    rw [fresh, answer, resolve_blank _ _ (category, text) blank] at outcome
    cases outcome
  rw [fresh_eq _ (category, text) nonblank] at outcome
  rw [fresh_eq _ (category, name) named]
  exact found_eq_of_bears distinct (mem_typesIn_of_found outcome) bears

/-- Where no two types share a short name, remembered types never change an answer. -/
theorem transparent_of_nodup (calls : List Call) (call : Call) :
    (afterAll catalog calls).answer catalog call = fresh catalog call :=
  (transparent_iff_selfNamed catalog).mpr (selfNamed_of_nodup distinct) calls call

end
end TypeCache
end SceneEdit
