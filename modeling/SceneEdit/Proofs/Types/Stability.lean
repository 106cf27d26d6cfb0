import SceneEdit.Proofs.Session.Logic
import SceneEdit.Proofs.Types.Identity
import SceneEdit.Session.Lookup

/-!
# Answers that stay

A session asks for types while catalogs come and go, so each call of a history has a catalog of its
own. What a name was resolved to once, it is resolved to by every later call for the category,
whatever the catalog has become by then.

Full names are looked up before short ones, so a type that is remembered under a short name could be
shadowed by one remembered later whose full name is the same text. That never happens: such a type
is only answered to calls with that text, and they are answered with the type that is remembered
(`recalled?_append`).
-/

namespace SceneEdit.TypeCache

/-- Calls, each made against a catalog of its own. -/
abbrev History := List (Catalog × Call)

/-- The cache after the calls of a history, starting from some cache. -/
def afterEach (cache : TypeCache) (history : History) : TypeCache :=
  history.foldl (fun cache (catalog, call) => cache.after catalog call) cache

variable {cache : TypeCache} {types : List (Category × Descriptor)}
variable {type other : Descriptor} {call call' : Call}

theorem afterEach_append (cache : TypeCache) (history later : History) :
    cache.afterEach (history ++ later) = (cache.afterEach history).afterEach later :=
  List.foldl_append

/-- A call that fails remembers nothing. -/
theorem after_of_error {catalog : Catalog} {report : Report}
    (failed : cache.answer catalog call = .error report) : cache.after catalog call = cache := by
  rw [answer] at failed
  rw [TypeCache.after]
  cases outcome : (cache.resolve catalog call.1 call.2).result with
  | error _ => rfl
  | ok pair =>
      rw [outcome] at failed
      cases failed

/-! ### What is recalled stays recalled -/

/-- What is recalled depends on the name without the blanks around it. -/
theorem recalled?_congr (types : List (Category × Descriptor)) {call call' : Call}
    (category : call'.1 = call.1) (name : Text.trim call'.2 = Text.trim call.2) :
    recalled? types call' = recalled? types call := by
  rw [recalled?, recalled?, category, name]

/-- A call whose name nothing is recalled for, answered with a type that bears the name, changes
nothing that is recalled. -/
theorem recalled?_append (recalls : recalled? types call = some type)
    (new : recalled? types call' = none) (bears : other.Bears (Text.trim call'.2)) :
    recalled? (types ++ [(call'.1, other)]) call = some type := by
  have again := recalls
  rw [recalled?] at again ⊢
  simp only [firstNamed?_append, firstNamed?_singleton]
  split at again
  · cases again
  · rename_i named
    rw [if_neg named]
    split at again
    · rename_i full
      cases again
      rw [full]
      rfl
    · rename_i absent
      split at again
      · cases again
      · rename_i plain
        rw [absent, again, if_neg plain]
        have elsewhere : ¬(call'.1, other.fullName.text) = (call.1, Text.trim call.2) := by
          intro same
          obtain ⟨category, full⟩ := Prod.mk.inj same
          have name : Text.trim call'.2 = Text.trim call.2 := by
            rcases bears with whole | ⟨-, short⟩
            · exact whole.symm.trans full
            · have fullName : other.fullName = ⟨Text.trim call.2⟩ := congrArg TypeName.mk full
              rw [← short, Descriptor.short, fullName, short_eq_self (by simpa using plain)]
          rw [recalled?_congr types category name, recalls] at new
          cases new
        rw [if_neg elsewhere]
        rfl

/-- A type that is answered again changes nothing that is recalled. -/
theorem recalled?_append_mem {entry : Category × Descriptor} (member : entry ∈ types)
    (call : Call) : recalled? (types ++ [entry]) call = recalled? types call := by
  simp only [recalled?, firstNamed?_append_mem _ member]

/-- A type is recalled for the call that it answers first. -/
theorem recalled?_of_new (named : Text.trim call.2 ≠ "") (new : recalled? types call = none)
    (bears : type.Bears (Text.trim call.2)) :
    recalled? (types ++ [(call.1, type)]) call = some type := by
  rw [recalled?, if_neg named] at new ⊢
  simp only [firstNamed?_append, firstNamed?_singleton, Prod.mk.injEq, true_and]
  split at new
  · cases new
  · rename_i absent
    rw [absent, Option.none_or]
    by_cases full : type.fullName.text = Text.trim call.2
    · rw [if_pos full]
    · obtain ⟨plain, short⟩ := bears.resolve_left full
      rw [plain, if_neg Bool.false_ne_true] at new
      rw [if_neg full, plain, new, if_pos short]
      rfl

/-! ### Histories -/

/-- The types that calls were answered with, each of the category it was asked for. -/
structure Records (cache : TypeCache) (types : List (Category × Descriptor)) : Prop where
  remembers : cache.Remembers types
  fits : ∀ entry ∈ types, entry.2.category.satisfies entry.1 = true

theorem records_empty : Records {} [] := ⟨Remembers.empty, by simp⟩

/-- What is recalled in one list of types is recalled in another one. -/
def Recalls (types types' : List (Category × Descriptor)) : Prop :=
  ∀ call type, recalled? types call = some type → recalled? types' call = some type

/-- An answer is recalled, or else it is found for a name. It satisfies the category and bears the
name. -/
theorem Records.answered (records : cache.Records types) {catalog : Catalog}
    (outcome : cache.answer catalog call = .ok type) :
    type.category.satisfies call.1 = true ∧ type.Bears (Text.trim call.2) ∧
      (recalled? types call = some type ∨
        Text.trim call.2 ≠ "" ∧ recalled? types call = none) := by
  rw [records.remembers.answer_eq] at outcome
  split at outcome
  · rename_i known recalls
    cases outcome
    obtain ⟨-, member, bears⟩ := recalled?_spec recalls
    exact ⟨records.fits _ member, bears, Or.inl recalls⟩
  · rename_i new
    by_cases named : Text.trim call.2 = ""
    · rw [fresh, answer, resolve_blank _ _ call named] at outcome
      cases outcome
    · rw [fresh_eq _ call named] at outcome
      exact ⟨(mem_typesIn.mp (mem_typesIn_of_found outcome)).2, bears_of_found outcome,
        Or.inr ⟨named, new⟩⟩

/-- One call: its answer is recalled from then on, and whatever was recalled before stays
recalled. -/
theorem Records.after (records : cache.Records types) (catalog : Catalog) (call : Call) :
    ∃ types', (cache.after catalog call).Records types' ∧ Recalls types types' ∧
      ∀ type, cache.answer catalog call = .ok type → recalled? types' call = some type := by
  have next := records.remembers.after catalog call
  cases outcome : cache.answer catalog call with
  | error report =>
      simp only [outcome, Except.toOption, Option.map_none, Option.toList_none,
        List.append_nil] at next
      refine ⟨types, ⟨next, records.fits⟩, fun _ _ same => same, ?_⟩
      rintro type ⟨⟩
  | ok type =>
      simp only [outcome, Except.toOption, Option.map_some, Option.toList_some] at next
      obtain ⟨fits, bears, recalls⟩ := records.answered outcome
      have fit : ∀ entry ∈ types ++ [(call.1, type)], entry.2.category.satisfies entry.1 = true :=
        List.forall_mem_append.mpr ⟨records.fits, List.forall_mem_singleton.mpr fits⟩
      refine ⟨_, ⟨next, fit⟩, ?_, ?_⟩
      · intro call' other before
        rcases recalls with known | ⟨-, new⟩
        · rwa [recalled?_append_mem (recalled?_spec known).2.1]
        · exact recalled?_append before new bears
      · rintro _ ⟨⟩
        rcases recalls with known | ⟨named, new⟩
        · rwa [recalled?_append_mem (recalled?_spec known).2.1]
        · exact recalled?_of_new named new bears

/-- A history: whatever was recalled before stays recalled. -/
theorem Records.afterEach (records : cache.Records types) (history : History) :
    ∃ types', (cache.afterEach history).Records types' ∧ Recalls types types' := by
  induction history generalizing cache types with
  | nil => exact ⟨types, records, fun _ _ same => same⟩
  | cons entry rest ih =>
      obtain ⟨middle, now, kept, -⟩ := records.after entry.1 entry.2
      obtain ⟨final, last, kept'⟩ := ih now
      exact ⟨final, last, fun call type before => kept' call type (kept call type before)⟩

theorem exists_records (history : History) :
    ∃ types, (({} : TypeCache).afterEach history).Records types := by
  obtain ⟨types, records, -⟩ := records_empty.afterEach history
  exact ⟨types, records⟩

/-- A session that looks up a capability type makes one call. -/
theorem capabilityType_types (editor : Editor) (session : Session) (name : String) :
    ((editor.capabilityType name).run session).2.types =
      session.types.after editor.host.env.catalog (.capability, name) := by
  have reaches : Edit.WP (editor.capabilityType name)
      (fun _ final => final.types =
        session.types.after editor.host.env.catalog (.capability, name))
      (fun _ final => final.types =
        session.types.after editor.host.env.catalog (.capability, name)) session := by
    rw [Editor.capabilityType, Edit.WP.bind_iff, Edit.WP.get_iff, Edit.WP.bind_iff,
      Edit.WP.ofAttempt_iff, TypeCache.after]
    cases (session.types.resolve editor.host.env.catalog .capability name).result with
    | error report => rfl
    | ok pair => exact Edit.WP.bind_iff.mpr (Edit.WP.modify_iff.mpr (Edit.WP.pure_iff.mpr rfl))
  rw [Edit.WP] at reaches
  split at reaches
  · rename_i run
    rw [run]
    exact reaches
  · rename_i run
    rw [run]
    exact reaches

/-- The types a session resolves are right and stay, whatever the catalogs are that its calls are
made against. A type that a call is answered with satisfies the category and bears the name; every
later call for the category with that name, blanks around it aside, is answered with it, and no
later call for the category with another type of its full name. A call that fails leaves the cache
as it was, also where it is part of a session. -/
theorem resolution_stable (history : History) (catalog : Catalog) (call : Call) :
    let cache := ({} : TypeCache).afterEach history
    (∀ type, cache.answer catalog call = .ok type →
      type.category.satisfies call.1 = true ∧ type.Bears (Text.trim call.2) ∧
      ∀ later : History,
        let final := ({} : TypeCache).afterEach (history ++ (catalog, call) :: later)
        ∀ (catalog' : Catalog) (text : String),
          (Text.trim text = Text.trim call.2 → final.answer catalog' (call.1, text) = .ok type) ∧
          ∀ other, final.answer catalog' (call.1, text) = .ok other →
            other.fullName = type.fullName → other = type) ∧
    ∀ report, cache.answer catalog call = .error report →
      cache.after catalog call = cache ∧
      ∀ (editor : Editor) (session : Session), call.1 = .capability → session.types = cache →
        editor.host.env.catalog = catalog →
          ((editor.capabilityType call.2).run session).2.types = cache := by
  obtain ⟨types, records⟩ := exists_records history
  refine ⟨fun type outcome => ?_, fun report failed => ?_⟩
  · obtain ⟨fits, bears, -⟩ := records.answered outcome
    refine ⟨fits, bears, fun later => ?_⟩
    obtain ⟨middle, now, -, recalls⟩ := records.after catalog call
    obtain ⟨final, last, kept⟩ := now.afterEach later
    have known := kept call type (recalls type outcome)
    rw [afterEach_append]
    intro _ catalog' text
    constructor
    · intro same
      have again : recalled? final (call.1, text) = recalled? final call := by
        apply recalled?_congr
        · rfl
        · exact same
      refine (last.remembers.answer_eq catalog' (call.1, text)).trans ?_
      rw [again, known]
    · intro other outcome' same
      obtain ⟨after, after', kept', recalls'⟩ := last.after catalog' (call.1, text)
      have first := known_of_recalled after'.remembers (kept' call type known)
      have second := known_of_recalled after'.remembers (recalls' other outcome')
      exact second.eq_of_fullName first same
  · have unchanged := after_of_error failed
    refine ⟨unchanged, fun editor session category types' catalog' => ?_⟩
    rw [capabilityType_types, types', catalog', ← category]
    exact unchanged

/-- A type that the catalog has lost is still what its short name means. -/
theorem resolution_stable_of_lost :
    let mover : Descriptor := ⟨⟨"Game.Mover"⟩, "Game", .capability⟩
    let catalog : Catalog := { modules := [("Game", .preferred)], entries := [⟨mover, none⟩] }
    let cache := ({} : TypeCache).afterEach [(catalog, .capability, "Mover")]
    cache.answer {} (.capability, " Mover\n") = .ok mover := by
  intro mover catalog cache
  have first : (({} : TypeCache).afterEach []).answer catalog (.capability, "Mover") =
      .ok mover := by decide
  obtain ⟨stays, -⟩ := resolution_stable [] catalog (.capability, "Mover")
  obtain ⟨-, -, later⟩ := stays mover first
  exact (later [] {} " Mover\n").1 (by decide +kernel)

end SceneEdit.TypeCache
