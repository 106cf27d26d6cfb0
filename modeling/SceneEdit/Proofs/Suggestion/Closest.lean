import SceneEdit.Proofs.Duplicates
import SceneEdit.Proofs.Suggestion.Distance
import SceneEdit.Proofs.Text

/-!
# The closest names

Which names are suggested for a misspelt one, said without the sorting and the limits of the
search: of the known names that are near enough the first few, in the order of their nearness and,
where that is the same, of their characters (`closest_exact`). Nearness counts edits without a
limit; that the search gives up on a name early shows nowhere, since then the name is too far away.
-/

namespace SceneEdit.Suggestion

/-! ### The order of suggestions -/

section

variable {a b c : Nat × String}

theorem precedes_iff : precedes a b = true ↔ a.1 < b.1 ∨ a.1 = b.1 ∧ a.2 ≤ b.2 := by
  simp [precedes]

theorem precedes_trans (first : precedes a b = true) (second : precedes b c = true) :
    precedes a c = true := by
  rw [precedes_iff] at *
  rcases first with nearer | ⟨tied, before⟩
  · exact Or.inl (by omega)
  · rcases second with nearer | ⟨tied', before'⟩
    · exact Or.inl (by omega)
    · exact Or.inr ⟨tied.trans tied', String.le_trans before before'⟩

theorem precedes_total (a b : Nat × String) : (precedes a b || precedes b a) = true := by
  rw [Bool.or_eq_true, precedes_iff, precedes_iff]
  rcases Nat.lt_trichotomy a.1 b.1 with nearer | tied | farther
  · exact Or.inl (Or.inl nearer)
  · exact (String.le_total a.2 b.2).imp (fun before => Or.inr ⟨tied, before⟩)
      fun before => Or.inr ⟨tied.symm, before⟩
  · exact Or.inr (Or.inl farther)

theorem precedes_antisymm (first : precedes a b = true) (second : precedes b a = true) : a = b := by
  rw [precedes_iff] at first second
  rcases first with nearer | ⟨tied, before⟩
  · omega
  · rcases second with nearer | ⟨-, after⟩
    · omega
    · exact Prod.ext tied (String.le_antisymm before after)

end

theorem pairwise_mergeSort (entries : List (Nat × String)) :
    (entries.mergeSort precedes).Pairwise fun a b => precedes a b = true :=
  List.pairwise_mergeSort (fun a b c => @precedes_trans a b c) precedes_total entries

theorem mergeSort_congr {entries entries' : List (Nat × String)} (perm : entries.Perm entries') :
    entries.mergeSort precedes = entries'.mergeSort precedes := by
  refine List.Perm.eq_of_pairwise (fun _ _ _ _ => precedes_antisymm) (pairwise_mergeSort _)
    (pairwise_mergeSort _) ?_
  exact (List.mergeSort_perm _ _).trans (perm.trans (List.mergeSort_perm _ _).symm)

/-- Suggestions depend on which names are known, and not on their order: equally near names are
ordered by their characters. -/
theorem closest_congr (misspelt : String) {names names' : List String}
    (same : ∀ name, name ∈ names ↔ name ∈ names') :
    closest misspelt names = closest misspelt names' := by
  have perm : names.eraseDups.Perm names'.eraseDups :=
    (List.perm_ext_iff_of_nodup (nodup_eraseDups names) (nodup_eraseDups names')).mpr
      fun name => by rw [List.mem_eraseDups, List.mem_eraseDups, same]
  simp only [closest, mergeSort_congr ((perm.map _).filter _)]

/-! ### Nearness -/

/-- How far a name is from a lowercase form: nothing if its own lowercase form is the same, one if
one of the two is a part of the other, and else the edit distance of the two. -/
def nearness (needle : List Char) (name : String) : Nat :=
  let lowered := Text.lowercase name.toList
  if lowered = needle then 0
  else if needle <:+: lowered ∨ lowered <:+: needle then 1
  else editDistance lowered needle

/-- One name is nearer than another one, or as near and earlier by its characters. -/
def Nearer (needle : List Char) (a b : String) : Prop :=
  nearness needle a < nearness needle b ∨ nearness needle a = nearness needle b ∧ a < b

/-- All names that are near enough, each once, in order. -/
structure Ranking (needle : List Char) (names ranked : List String) : Prop where
  mem_iff : ∀ name, name ∈ ranked ↔ name ∈ names ∧ nearness needle name ≤ maxDistance
  ordered : ranked.Pairwise (Nearer needle)

variable {needle : List Char} {names ranked : List String}

theorem Nearer.asymm {a b : String} (nearer : Nearer needle a b) : ¬Nearer needle b a := by
  rintro (farther | ⟨tied, later⟩)
  · rcases nearer with nearer | ⟨tied, -⟩
    · omega
    · omega
  · rcases nearer with nearer | ⟨-, earlier⟩
    · omega
    · exact String.lt_asymm earlier later

theorem Ranking.nodup (ranking : Ranking needle names ranked) : ranked.Nodup := by
  refine ranking.ordered.imp fun {a b} nearer same => ?_
  subst same
  exact nearer.asymm nearer

/-- There is one ranking only. -/
theorem Ranking.eq {other : List String} (ranking : Ranking needle names ranked)
    (ranking' : Ranking needle names other) : ranked = other := by
  have perm : ranked.Perm other := (List.perm_ext_iff_of_nodup ranking.nodup ranking'.nodup).mpr
    fun name => by rw [ranking.mem_iff, ranking'.mem_iff]
  exact perm.eq_of_pairwise (fun _ _ _ _ nearer farther => absurd farther nearer.asymm)
    ranking.ordered ranking'.ordered

/-- The score of a name is its nearness as far as the limit lets it be seen. -/
theorem score_spec (needle : List Char) (name : String) :
    WithinLimit maxDistance (nearness needle name) (score needle name) := by
  rw [score, nearness]
  simp only [Bool.or_eq_true, Text.occursIn_iff]
  split
  · exact Or.inl rfl
  · split
    · exact Or.inl rfl
    · exact boundedDistance_spec maxDistance _ needle

theorem WithinLimit.le_iff {limit distance found : Nat}
    (within : WithinLimit limit distance found) : found ≤ limit ↔ distance ≤ limit := by
  obtain same | ⟨far, past⟩ := within
  · rw [same]
  · omega

theorem WithinLimit.eq {limit distance found : Nat} (within : WithinLimit limit distance found)
    (near : found ≤ limit) : found = distance := by
  rcases within with same | ⟨-, past⟩
  · exact same
  · omega

/-- The names that are scored and close enough, with their scores. -/
def closeEntries (needle : List Char) (names : List String) : List (Nat × String) :=
  (names.eraseDups.map fun name => (score needle name, name)).filter fun entry =>
    entry.1 ≤ maxDistance

theorem mem_closeEntries_iff {entry : Nat × String} : entry ∈ closeEntries needle names ↔
    entry.2 ∈ names ∧ nearness needle entry.2 ≤ maxDistance ∧
      entry.1 = nearness needle entry.2 := by
  have within := score_spec needle entry.2
  rw [closeEntries, List.mem_filter, List.mem_map]
  simp only [decide_eq_true_eq]
  constructor
  · rintro ⟨⟨name, known, rfl⟩, close⟩
    exact ⟨List.mem_eraseDups.mp known, within.le_iff.mp close, within.eq close⟩
  · rintro ⟨known, near, same⟩
    have close := within.le_iff.mpr near
    exact ⟨⟨entry.2, List.mem_eraseDups.mpr known, Prod.ext (same ▸ within.eq close) rfl⟩,
      same ▸ near⟩

theorem nodup_closeEntries (needle : List Char) (names : List String) :
    ((closeEntries needle names).map Prod.snd).Nodup := by
  have kept := (List.filter_sublist (p := fun entry : Nat × String => entry.1 ≤ maxDistance)
    (l := names.eraseDups.map fun name => (score needle name, name))).map Prod.snd
  refine kept.nodup ?_
  rw [List.map_map]
  exact (List.map_id names.eraseDups).symm ▸ nodup_eraseDups names

/-- Sorting the close entries ranks their names. -/
theorem ranking_mergeSort (needle : List Char) (names : List String) :
    Ranking needle names (((closeEntries needle names).mergeSort precedes).map Prod.snd) := by
  have perm := List.mergeSort_perm (closeEntries needle names) precedes
  constructor
  · intro name
    rw [(perm.map Prod.snd).mem_iff, List.mem_map]
    constructor
    · rintro ⟨entry, close, rfl⟩
      obtain ⟨known, near, -⟩ := mem_closeEntries_iff.mp close
      exact ⟨known, near⟩
    · rintro ⟨known, near⟩
      exact ⟨(nearness needle name, name), mem_closeEntries_iff.mpr ⟨known, near, rfl⟩, rfl⟩
  · have sorted := pairwise_mergeSort (closeEntries needle names)
    have distinct := (perm.map Prod.snd).nodup_iff.mpr (nodup_closeEntries needle names)
    rw [List.pairwise_map]
    refine (sorted.and (List.pairwise_map.mp distinct)).imp_of_mem ?_
    rintro a b first second ⟨before, other⟩
    obtain ⟨-, -, near⟩ := mem_closeEntries_iff.mp (perm.mem_iff.mp first)
    obtain ⟨-, -, near'⟩ := mem_closeEntries_iff.mp (perm.mem_iff.mp second)
    rw [precedes_iff, near, near'] at before
    refine before.imp_right fun ⟨tied, earlier⟩ => ⟨tied, ?_⟩
    exact String.not_le.mp fun later => other (String.le_antisymm earlier later)

/-- For a name that is not blank, the search sorts the close entries. -/
theorem closest_eq {misspelt : String} (given : Text.trim misspelt ≠ "") (names : List String) :
    closest misspelt names = (((closeEntries (Text.lowercase (Text.trimmed misspelt.toList))
      names).mergeSort precedes).map Prod.snd).take maxCount := by
  have visible : Text.trimmed misspelt.toList ≠ [] := by
    intro blank
    rw [Text.trim, blank] at given
    exact given rfl
  rw [closest, ← List.map_take]
  dsimp only
  rw [if_neg (by rwa [List.isEmpty_iff, Text.lowercase_eq_nil_iff])]
  rfl

/-- The suggestions for a misspelt name that is not blank are the first few in the ranking, of which
there is one only, of the names that are near enough to it. They do not depend on the order of the
known names, or on how often a name occurs. The edit distance that the ranking rests on is the least
number of edits, and computing it within a limit finds it wherever it is within the limit, and
something beyond the limit otherwise. -/
theorem closest_exact (misspelt : String) (given : Text.trim misspelt ≠ "") (names : List String) :
    (∃ ranked, closest misspelt names = ranked.take maxCount ∧ ∀ other,
      Ranking (Text.lowercase (Text.trimmed misspelt.toList)) names other ↔ other = ranked) ∧
    (∀ names', (∀ name, name ∈ names' ↔ name ∈ names) →
      closest misspelt names' = closest misspelt names) ∧
    ∀ limit text needle,
      (editDistance text needle ≤ limit ↔ Edits limit text needle) ∧
      (editDistance text needle ≤ limit →
        boundedDistance limit text needle = editDistance text needle) ∧
      (limit < editDistance text needle → limit < boundedDistance limit text needle) := by
  refine ⟨⟨_, closest_eq given names, fun other => ⟨fun ranking => ?_, fun same => ?_⟩⟩,
    fun names' same => closest_congr misspelt same, fun limit text needle => ?_⟩
  · exact ranking.eq (ranking_mergeSort _ names)
  · exact same ▸ ranking_mergeSort _ names
  have within := boundedDistance_spec limit text needle
  refine ⟨editDistance_le_iff, fun near => within.eq (within.le_iff.mpr near), fun far => ?_⟩
  exact Nat.lt_of_not_le fun close => Nat.not_le_of_lt far (within.le_iff.mp close)

/-- A name with a letter missing, among others. -/
theorem closest_exact_of_typo :
    let names := ["Renderer", "RIGIDBODY", "Light"]
    Text.trim " Rigidbdy " ≠ "" ∧ closest " Rigidbdy " names = ["RIGIDBODY"] ∧
      ∃ ranked, ["RIGIDBODY"] = ranked.take maxCount ∧ Ranking "rigidbdy".toList names ranked := by
  intro names
  have given : Text.trim " Rigidbdy " ≠ "" := by decide +kernel
  have lowered : Text.lowercase (Text.trimmed " Rigidbdy ".toList) = "rigidbdy".toList := by
    decide +kernel
  have close : closeEntries "rigidbdy".toList names = [(1, "RIGIDBODY")] := by decide +kernel
  have found : closest " Rigidbdy " names = ["RIGIDBODY"] := by
    rw [closest_eq given, lowered, close, List.mergeSort_singleton]
    rfl
  obtain ⟨ranked, first, ranking⟩ := (closest_exact " Rigidbdy " given names).1
  rw [lowered] at ranking
  exact ⟨given, found, ranked, found ▸ first, (ranking ranked).mpr rfl⟩

end SceneEdit.Suggestion
