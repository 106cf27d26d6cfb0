import SceneEdit.Proofs.Log
import SceneEdit.Proofs.Types.Recall

/-!
# One type for each full name

Different catalogs may have different types of the same full name, and a session may see several
catalogs. Still, whatever a session is answered with is what it remembers under the type's full name
(`Coherent.resolve`): a full name that was remembered has its short name remembered too, so neither
of them is ever looked up again. Hence all types a session is answered with in a category differ in
their full names (`Known.eq_of_fullName`).
-/

namespace SceneEdit.TypeCache

variable {cache changed : TypeCache} {types : List (Category × Descriptor)} {category : Category}
variable {type : Descriptor}

/-- The cache of a session that has been answered with some types. -/
def Coherent (cache : TypeCache) : Prop := ∃ types, cache.Remembers types

/-- A type is what is remembered under its full name. -/
def Known (cache : TypeCache) (category : Category) (type : Descriptor) : Prop :=
  cache.byFullName.get? category type.fullName.text = some type

theorem Known.eq_of_fullName {other : Descriptor} (known : cache.Known category type)
    (known' : cache.Known category other) (same : type.fullName = other.fullName) :
    type = other := by
  rw [Known, same] at known
  exact Option.some.inj (known.symm.trans known')

theorem Known.remember (known : cache.Known category type) (category' : Category)
    (new : Descriptor) : (cache.remember category' new).Known category type := by
  rw [Known, TypeCache.remember, TypeIndex.get?_insertNew, known]
  rfl

theorem coherent_empty : Coherent {} := ⟨[], Remembers.empty⟩

/-! ### The first type of a name -/

theorem firstNamed?_cons (key : Descriptor → String) (entry : Category × Descriptor)
    (rest : List (Category × Descriptor)) (category : Category) (name : String) :
    firstNamed? key (entry :: rest) category name =
      if entry.1 = category ∧ key entry.2 = name then some entry.2
      else firstNamed? key rest category name := by
  rw [firstNamed?, List.find?_cons]
  by_cases first : entry.1 = category ∧ key entry.2 = name
  · simp [first]
  · simp [first, firstNamed?]

theorem short_of_fullName {other : Descriptor}
    (same : other.fullName.text = type.fullName.text) : other.short = type.short :=
  congrArg (fun text => (⟨text⟩ : TypeName).short) same

/-- The first type of a short name is the first of its full name, since types of one full name have
one short name. -/
theorem firstNamed?_fullName_of_short {name : String}
    (first : firstNamed? Descriptor.short types category name = some type) :
    firstNamed? (·.fullName.text) types category type.fullName.text = some type := by
  have short := (mem_of_firstNamed? first).2
  induction types with
  | nil => cases first
  | cons entry rest ih =>
      rw [firstNamed?_cons] at first ⊢
      split at first
      · rename_i here
        cases first
        rw [if_pos ⟨here.1, rfl⟩]
      · rename_i elsewhere
        rw [if_neg fun here => elsewhere ⟨here.1, (short_of_fullName here.2).trans short⟩]
        exact ih first

/-- A type whose short name is new has a new full name. -/
theorem firstNamed?_fullName_of_new
    (new : firstNamed? Descriptor.short types category type.short = none) :
    firstNamed? (·.fullName.text) types category type.fullName.text = none := by
  induction types with
  | nil => rfl
  | cons entry rest ih =>
      rw [firstNamed?_cons] at new ⊢
      split at new
      · cases new
      · rename_i elsewhere
        rw [if_neg fun here => elsewhere ⟨here.1, short_of_fullName here.2⟩]
        exact ih new

/-- What is found bears the name that was looked for. -/
theorem bears_of_found {catalog : Catalog} {name : String}
    (outcome : found catalog category name = .ok type) : type.Bears name := by
  rw [found] at outcome
  split at outcome
  · rename_i direct looked
    cases outcome
    obtain ⟨known, -⟩ := Option.filter_eq_some_iff.mp looked
    obtain ⟨entry, first, rfl⟩ := Option.map_eq_some_iff.mp known
    exact Or.inl (by simpa using List.find?_some first)
  · split at outcome
    · cases outcome
    · rename_i alone shadowed
      rw [← Except.ok.inj outcome]
      have candidate := mem_of_mem_shadowed (shadowed ▸ List.mem_singleton_self alone)
      have named := (List.mem_filter.mp (mem_of_mem_eraseDupsBy _ candidate)).2
      simpa [Descriptor.Bears] using named
    · cases outcome

/-! ### Answers -/

/-- A type that is remembered for a name it bears is found under that name. -/
theorem remembered?_remember {name : String} (new : cache.remembered? category name = none)
    (bears : type.Bears name) :
    ∃ key, (cache.remember category type).remembered? category name = some (type, key) := by
  rw [remembered?] at new
  simp only [remembered?, TypeCache.remember, TypeIndex.get?_insertNew, Prod.mk.injEq, true_and]
  cases absent : cache.byFullName.get? category name with
  | some known =>
      rw [absent] at new
      cases new
  | none =>
      by_cases full : type.fullName.text = name
      · exact ⟨_, by rw [if_pos full]; rfl⟩
      · obtain ⟨plain, short⟩ := bears.resolve_left full
        rw [absent, plain] at new
        have shortAbsent := Option.map_eq_none_iff.mp new
        exact ⟨_, by rw [if_neg full, plain, if_pos short, shortAbsent]; rfl⟩

theorem Remembers.known (remembers : cache.Remembers types)
    (first : firstNamed? (·.fullName.text) types category type.fullName.text = some type) :
    cache.Known category type :=
  (remembers.full category type.fullName.text).trans first

/-- A type that is recalled is the first of its full name. -/
theorem known_of_recalled (remembers : cache.Remembers types) {text : String}
    (recalls : recalled? types (category, text) = some type) : cache.Known category type := by
  apply remembers.known
  rw [recalled?] at recalls
  dsimp only at recalls
  split at recalls
  · cases recalls
  · split at recalls
    · rename_i full
      cases recalls
      rw [(mem_of_firstNamed? full).2]
      exact full
    · split at recalls
      · cases recalls
      · exact firstNamed?_fullName_of_short recalls

/-- A type found under a name that is not recalled is the first of its full name. -/
theorem known_of_new (remembers : cache.Remembers types) {text : String}
    (named : Text.trim text ≠ "") (new : recalled? types (category, text) = none)
    (bears : type.Bears (Text.trim text)) : (cache.remember category type).Known category type := by
  apply (remembers.remember category type).known
  rw [firstNamed?_append, firstNamed?_singleton, if_pos rfl]
  rw [recalled?, if_neg named] at new
  dsimp only at new
  split at new
  · cases new
  · rename_i absent
    rcases bears with full | ⟨plain, short⟩
    · rw [full, absent]
      rfl
    · rw [plain, if_neg Bool.false_ne_true, ← short] at new
      rw [firstNamed?_fullName_of_new new]
      rfl

/-- Whatever a call is answered with is remembered under its full name from then on, and what was
remembered before stays. -/
theorem Coherent.resolve (coherent : cache.Coherent) {catalog : Catalog} {text : String}
    (outcome : (cache.resolve catalog category text).result = .ok (type, changed)) :
    changed.Coherent ∧ changed.Known category type ∧
      ∀ other, cache.Known category other → changed.Known category other := by
  obtain ⟨types, remembers⟩ := coherent
  by_cases named : Text.trim text = ""
  · rw [resolve_blank cache catalog (category, text) named] at outcome
    cases outcome
  · have recalls : (cache.remembered? category (Text.trim text)).map Prod.fst =
        recalled? types (category, text) :=
      @Remembers.remembered?_eq cache types remembers (category, text) named
    rw [resolve_result cache catalog (category, text) named] at outcome
    cases hit : cache.remembered? category (Text.trim text) with
    | some known =>
        rw [hit] at recalls outcome
        cases outcome
        exact ⟨⟨types, remembers⟩, known_of_recalled remembers recalls.symm, fun _ known => known⟩
    | none =>
        rw [hit] at recalls outcome
        obtain ⟨type', finds, same⟩ := map_eq_ok_iff.mp outcome
        cases same
        exact ⟨⟨_, remembers.remember category type⟩,
          known_of_new remembers named recalls.symm (bears_of_found finds),
          fun _ known => known.remember category type⟩

/-- A call that is made again is answered again, now from what the first one remembers, and
changes nothing more. -/
theorem resolve_again {catalog : Catalog} {text : String}
    (outcome : (cache.resolve catalog category text).result = .ok (type, changed)) :
    (changed.resolve catalog category text).result = .ok (type, changed) := by
  by_cases named : Text.trim text = ""
  · rw [resolve_blank cache catalog (category, text) named] at outcome
    cases outcome
  · rw [resolve_result cache catalog (category, text) named] at outcome
    cases hit : cache.remembered? category (Text.trim text) with
    | some known =>
        rw [hit] at outcome
        cases outcome
        rw [resolve_result cache catalog (category, text) named, hit]
    | none =>
        rw [hit] at outcome
        obtain ⟨type', finds, same⟩ := map_eq_ok_iff.mp outcome
        cases same
        obtain ⟨key, now⟩ := remembered?_remember hit (bears_of_found finds)
        rw [resolve_result _ catalog (category, text) named, now]

end SceneEdit.TypeCache
