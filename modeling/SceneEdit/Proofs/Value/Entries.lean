import SceneEdit.Value.Token

/-!
# Entries of an object's token

A key that is given more than once keeps its first place and its last value. The entries of an
object are made of the members that are shown, one of each, in the order of the table.
-/

namespace SceneEdit

namespace Entries

theorem insert_of_absent {entries : Entries} {key : String} (absent : key ∉ entries.keys)
    (value : Token) : entries.insert key value = entries ++ [(key, value)] := by
  induction entries with
  | nil => rfl
  | cons entry rest ih =>
      have others : key ∉ Entries.keys rest := fun inside => absent (List.mem_cons_of_mem _ inside)
      have different : ¬ entry.1 = key := fun same => absent (same ▸ List.mem_cons_self)
      rw [insert, if_neg different, ih others]
      rfl

theorem extend_of_nodup {entries more : Entries} (distinct : (entries ++ more).keys.Nodup) :
    entries.extend more = entries ++ more := by
  induction more generalizing entries with
  | nil => exact (List.append_nil entries).symm
  | cons entry rest ih =>
      obtain ⟨key, value⟩ := entry
      have absent : key ∉ entries.keys := by
        intro inside
        rw [keys, List.map_append, List.map_cons] at distinct
        exact (List.nodup_append.mp distinct).2.2 key inside key List.mem_cons_self rfl
      have step : entries.insert key value = entries ++ [(key, value)] :=
        insert_of_absent absent value
      have joined : entries ++ [(key, value)] ++ rest = entries ++ (key, value) :: rest :=
        List.append_assoc ..
      show Entries.extend (entries.insert key value) rest = _
      rw [step, ih (by rwa [joined]), joined]

/-- Pairs of different keys are entries as they are. -/
theorem ofPairs_of_nodup {pairs : Entries} (distinct : pairs.keys.Nodup) : ofPairs pairs = pairs :=
  @extend_of_nodup [] pairs distinct

theorem get?_cons (entry : String × Token) (rest : Entries) (key : String) :
    get? (entry :: rest) key = if entry.1 = key then some entry.2 else rest.get? key := by
  rw [get?, List.find?_cons]
  by_cases here : entry.1 = key
  · simp [here]
  · rw [if_neg here, beq_false_of_ne here, get?]

theorem get?_insert (entries : Entries) (key other : String) (value : Token) :
    (entries.insert key value).get? other =
      if key = other then some value else entries.get? other := by
  induction entries with
  | nil => exact get?_cons (key, value) [] other
  | cons entry rest ih =>
      rw [insert]
      by_cases here : entry.1 = key
      · rw [if_pos here, get?_cons, get?_cons, here]
        by_cases same : key = other <;> simp [same]
      · rw [if_neg here, get?_cons, get?_cons, ih]
        by_cases same : key = other
        · simp [← same, here]
        · simp [same]

/-- Entries with one stored under a key: behind all others if the key is new, else in the place of
the first entry that has the key. -/
inductive Stored (entries : Entries) (key : String) (value : Token) : Entries → Prop
  | behind (new : key ∉ entries.keys) : Stored entries key value (entries ++ [(key, value)])
  | inPlace {before after : Entries} {old : Token} (first : key ∉ before.keys)
      (split : entries = before ++ (key, old) :: after) :
      Stored entries key value (before ++ (key, value) :: after)

theorem stored_insert (entries : Entries) (key : String) (value : Token) :
    entries.Stored key value (entries.insert key value) := by
  induction entries with
  | nil => exact .behind List.not_mem_nil
  | cons entry rest ih =>
      obtain ⟨name, old⟩ := entry
      rw [insert]
      by_cases here : name = key
      · rw [if_pos here, here]
        exact @Stored.inPlace _ _ _ [] rest old List.not_mem_nil rfl
      · rw [if_neg here]
        generalize Entries.insert rest key value = stored at ih ⊢
        cases ih with
        | behind new =>
            exact .behind (List.not_mem_cons_of_ne_of_not_mem (Ne.symm here) new)
        | @inPlace before after _ first split =>
            have first' := List.not_mem_cons_of_ne_of_not_mem (Ne.symm here) first
            exact @Stored.inPlace _ _ _ ((name, old) :: before) after _ first'
              (congrArg (List.cons (name, old)) split)

/-- Nothing but the entries with one inserted is meant. -/
theorem Stored.eq_insert {entries stored : Entries} {key : String} {value : Token}
    (became : entries.Stored key value stored) : stored = entries.insert key value := by
  cases became with
  | behind new => exact (insert_of_absent new value).symm
  | @inPlace before after old first split =>
      subst split
      induction before with
      | nil => simp [insert]
      | cons entry rest ih =>
          have different : ¬ entry.1 = key := fun same => first (same ▸ List.mem_cons_self)
          have others : key ∉ Entries.keys rest := fun inside =>
            first (List.mem_cons_of_mem _ inside)
          rw [List.cons_append, List.cons_append, insert, if_neg different, ← ih others]

/-- Of further entries with a key, the last one counts. -/
theorem get?_extend (entries more : Entries) (key : String) :
    (entries.extend more).get? key =
      ((more.reverse.find? fun entry => entry.1 == key).map Prod.snd).or (entries.get? key) := by
  induction more generalizing entries with
  | nil => rfl
  | cons entry rest ih =>
      show (Entries.extend (entries.insert entry.1 entry.2) rest).get? key = _
      rw [ih, get?_insert, List.reverse_cons, List.find?_append, Option.map_or, Option.or_assoc]
      by_cases here : entry.1 = key <;> simp [here]

theorem get?_ofPairs (pairs : Entries) (key : String) :
    (ofPairs pairs).get? key =
      (pairs.reverse.find? fun pair => pair.1 == key).map Prod.snd :=
  (get?_extend [] pairs key).trans (Option.or_none ..)

end Entries

/-- The last item with a property is the one behind which no other has it. -/
theorem find?_reverse_eq_some_iff {α : Type} {p : α → Bool} {items : List α} {item : α} :
    items.reverse.find? p = some item ↔ ∃ index : Nat, items[index]? = some item ∧
      p item = true ∧
      ∀ place other, items[place]? = some other → p other = true → place ≤ index := by
  have last : ∀ {item : α}, items.reverse.find? p = some item → ∃ index : Nat,
      items[index]? = some item ∧ p item = true ∧
      ∀ place other, items[place]? = some other → p other = true → place ≤ index := by
    intro item found
    obtain ⟨holds, before, after, split, none⟩ := List.find?_eq_some_iff_append.mp found
    have whole : items = after.reverse ++ item :: before.reverse := by
      rw [← List.reverse_reverse items, split]
      simp
    refine ⟨after.length, by simp [whole], holds, fun place other there holds' => ?_⟩
    refine Nat.le_of_not_lt fun later => ?_
    have behind : other ∈ before := by
      rw [whole, List.getElem?_append_right (by simp; omega), List.getElem?_cons,
        if_neg (by simp; omega)] at there
      exact List.mem_reverse.mp (List.mem_of_getElem? there)
    simpa [holds'] using none other behind
  refine ⟨last, fun ⟨index, there, holds, final⟩ => ?_⟩
  cases found : items.reverse.find? p with
  | none =>
      have inside := List.mem_reverse.mpr (List.mem_of_getElem? there)
      exact absurd holds (List.find?_eq_none.mp found item inside)
  | some other =>
      obtain ⟨index', there', holds', final'⟩ := last found
      have same : index = index' :=
        Nat.le_antisymm (final' _ _ there holds) (final _ _ there' holds')
      rw [← same] at there'
      exact there'.symm.trans there

namespace Slot

/-- Hidden members are shown only if asked for. -/
def Shown {ν : Type} (hidden : Bool) (slot : Slot ν) : Prop := hidden = true ∨ slot.kind ≠ .hidden

instance {ν : Type} (hidden : Bool) (slot : Slot ν) : Decidable (slot.Shown hidden) :=
  inferInstanceAs (Decidable (_ ∨ _))

end Slot

namespace Value

/-- Members that are shown become entries one by one. -/
theorem memberPairs_eq (hidden : Bool) (members : List Member) : memberPairs hidden members =
    (members.filter fun member => decide (member.Shown hidden)).map fun member =>
      (member.name, member.value.toToken hidden) := by
  induction members with
  | nil => rfl
  | cons member rest ih =>
      have condition :
          (hidden || decide (member.kind ≠ .hidden)) = decide (member.Shown hidden) := by
        cases hidden <;> simp [Slot.Shown]
      rw [memberPairs, ih, condition, List.filter_cons]
      cases decide (member.Shown hidden) <;> rfl

theorem memberPairs_all (members : List Member) : memberPairs true members =
    members.map fun member => (member.name, member.value.toToken true) := by
  have shown : ∀ member ∈ members, decide (member.Shown true) = true :=
    fun _ _ => decide_eq_true (Or.inl rfl)
  rw [memberPairs_eq, List.filter_eq_self.mpr shown]

theorem tableEntries_of_plain {object : Object} (plain : object.shader = none) (hidden : Bool) :
    tableEntries hidden object = Entries.ofPairs (memberPairs hidden object.members) := by
  obtain ⟨name, members, shader⟩ := object
  cases plain
  rfl

end Value

end SceneEdit
