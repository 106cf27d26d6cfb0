import SceneEdit.Proofs.Coercion.Merge

/-!
# Converting again

A conversion looks at what the slot holds, so converting a token a second time starts from another
value than the first time: from a merged object where there was a default state, from a list as long
as the array where there was a shorter one. It gives the same value all the same, if no object that
is merged on the way has two keys that are the same ignoring case (`settles_of_unambiguous`).

Only conversions to collections and to objects look at what the slot holds. An array meets, the
second time, the items that its own items were converted to. An object token finds all its members
written: no two of its entries name the same member, so each member holds what its entry was
converted to (`foldlM_mergeEntry_settled`). Where the default state has another type than the one
asked for, the second merge starts from it again and is the first one.
-/

namespace SceneEdit

/-- No two keys are the same ignoring case. -/
def Entries.Distinct (entries : Entries) : Prop :=
  entries.Pairwise fun entry other => Text.sameIgnoringCase entry.1 other.1 = false

instance (entries : Entries) : Decidable entries.Distinct :=
  inferInstanceAs (Decidable (List.Pairwise _ _))

namespace Token

variable {token : Token}

/-- An object in a token, or in a document that one of its texts holds, has these entries. -/
inductive Holds : Token → Entries → Prop
  | here {token : Token} {entries : Entries} (document : token.embedded = .obj entries) :
      Holds token entries
  | item {token item : Token} {items : List Token} {entries : Entries}
      (document : token.embedded = .arr items) (inside : item ∈ items)
      (held : Holds item entries) : Holds token entries
  | entry {token inner : Token} {key : String} {fields entries : Entries}
      (document : token.embedded = .obj fields) (inside : (key, inner) ∈ fields)
      (held : Holds inner entries) : Holds token entries

theorem weight_le_of_mem_items {item : Token} {items : List Token} (inside : item ∈ items) :
    item.weight ≤ itemsWeight items := by
  induction items with
  | nil => cases inside
  | cons first rest ih =>
      rw [itemsWeight]
      obtain rfl | inside := List.mem_cons.mp inside
      · omega
      · have light := ih inside
        omega

theorem weight_le_of_mem_entries {entry : String × Token} {entries : Entries}
    (inside : entry ∈ entries) : entry.2.weight ≤ entriesWeight entries := by
  induction entries with
  | nil => cases inside
  | cons first rest ih =>
      rw [entriesWeight_cons]
      obtain rfl | inside := List.mem_cons.mp inside
      · omega
      · have light := ih inside
        omega

/-- The items of an array are lighter than what holds it. -/
theorem weight_lt_of_item {item : Token} {items : List Token}
    (document : token.embedded = .arr items) (inside : item ∈ items) :
    item.weight < token.weight := by
  have light := token.weight_embedded_le
  have part := weight_le_of_mem_items inside
  rw [document, weight] at light
  omega

/-- The values of an object's entries are lighter than what holds it. -/
theorem weight_lt_of_entry {entry : String × Token} {entries : Entries}
    (document : token.embedded = .obj entries) (inside : entry ∈ entries) :
    entry.2.weight < token.weight := by
  have light := token.weight_embedded_le
  have part := weight_le_of_mem_entries inside
  rw [document, weight] at light
  omega

end Token

namespace Coercion

variable {env : Environment} {field : String} {token : Token} {target : ValueType}
variable {current : Option Value}

/-! ### The objects that are merged -/

/-- Converting a token for a type, against what the slot holds, merges an object token with these
entries: the token itself, an item of an array, or the value of an entry that names a member. -/
inductive Merges (env : Environment) : Token → ValueType → Option Value → Entries → Prop
  | here {token : Token} {target : ValueType} {name : TypeName} {current : Option Value}
      {entries : Entries} (nested : target = .struct name ∨ target = .reference name)
      (document : token.embedded = .obj entries) : Merges env token target current entries
  | entry {token inner : Token} {target : ValueType} {name : TypeName} {current : Option Value}
      {fields entries : Entries} {field key : String} {base : Object} {index : Nat}
      {member : Member} (nested : target = .struct name ∨ target = .reference name)
      (document : token.embedded = .obj fields)
      (start : (baseObject env field target name current).value? = some base)
      (inside : (key, inner) ∈ fields) (looked : (base.find key).result = .ok index)
      (there : base.members[index]? = some member)
      (merges : Merges env inner member.declared (some member.value) entries) :
      Merges env token target current entries
  | item {token inner : Token} {target element : ValueType} {current : Option Value}
      {items : List Token} {entries : Entries} {place : Nat}
      (collection : target = .list element ∨ target = .array element items.length)
      (document : token.embedded = .arr items) (given : items[place]? = some inner)
      (merges : Merges env inner element (currentItems current)[place]? entries) :
      Merges env token target current entries
  | nullable {token : Token} {inner : ValueType} {current : Option Value} {entries : Entries}
      (merges : Merges env token inner current entries) :
      Merges env token (.nullable inner) current entries

/-- Only objects in the token or in its texts are merged. -/
theorem Merges.holds {entries : Entries} (merges : Merges env token target current entries) :
    token.Holds entries := by
  induction merges with
  | here nested document => exact .here document
  | entry nested document start inside looked there merges ih => exact .entry document inside ih
  | item collection document given merges ih => exact .item document (List.mem_of_getElem? given) ih
  | nullable merges ih => exact ih

/-- No object that is merged has two keys that are the same ignoring case. -/
def Unambiguous (env : Environment) (token : Token) (target : ValueType)
    (current : Option Value) : Prop :=
  ∀ entries, Merges env token target current entries → entries.Distinct

/-- A token none of whose objects has two keys that are the same ignoring case is unambiguous
for every slot. -/
theorem Unambiguous.of_holds (distinct : ∀ entries, token.Holds entries → entries.Distinct)
    (env : Environment) (target : ValueType) (current : Option Value) :
    Unambiguous env token target current :=
  fun entries merges => distinct entries merges.holds

/-! ### What is settled -/

/-- Converting the token for a slot that holds the value gives the value. -/
def Settled (env : Environment) (token : Token) (target : ValueType) (value : Value) : Prop :=
  ∀ field, (coerce env field token target (some value)).value? = some value

/-- Whatever the conversion against what the slot holds gives is settled. -/
def Settles (env : Environment) (token : Token) (target : ValueType)
    (current : Option Value) : Prop :=
  ∀ field value, (coerce env field token target current).value? = some value →
    Settled env token target value

theorem mergeEntry_settled {table : Object} {entry : String × Token} {index : Nat} {member : Member}
    (looked : (table.find entry.1).result = .ok index) (there : table.members[index]? = some member)
    (writable : member.writable = true)
    (settled : Settled env entry.2 member.declared member.value) :
    mergeEntry env table entry = some table := by
  exact (mergeEntry_eq_some_iff entry.1).mpr ⟨index, member, member.value, looked, there, writable,
    Traced.value?_eq_some_iff.mp (settled _), Table.setMember_held there⟩

/-- A member that no entry names holds after all of them what it held before. -/
theorem member_of_foldlM_mergeEntry {table merged : Object} {entries : Entries} {index : Nat}
    {member : Member} (there : table.members[index]? = some member)
    (spared : ∀ entry ∈ entries, (table.find entry.1).result ≠ .ok index)
    (done : entries.foldlM (mergeEntry env) table = some merged) :
    merged.members[index]? = some member := by
  have held : (Value.object table).at? [.member index] = some member.value := by
    rw [Value.at?, Value.child?, there]
    rfl
  have kept := foldlM_mergeEntry_keptAt (.refl held) (fun key inner place _ inside looked _ here =>
    absurd (Place.member.inj here ▸ looked) (spared (key, inner) inside)) done
  obtain ⟨value, there'⟩ := Table.member_of_outline (outline_foldlM_mergeEntry done) there
  have held' := kept.at?_eq.trans held
  rw [Value.at?, Value.child?, there'] at held'
  cases held'
  exact there'

/-- Entries that name different members, written again into what they were written into, change
nothing. -/
theorem foldlM_mergeEntry_settled {table merged : Object} {entries : Entries}
    (distinct : entries.Distinct)
    (each : ∀ key inner index member, (key, inner) ∈ entries →
      (table.find key).result = .ok index → table.members[index]? = some member →
      Settles env inner member.declared (some member.value))
    (done : entries.foldlM (mergeEntry env) table = some merged) :
    entries.foldlM (mergeEntry env) merged = some merged := by
  induction entries generalizing table with
  | nil => rfl
  | cons entry rest ih =>
      obtain ⟨key, inner⟩ := entry
      rw [List.foldlM_cons] at done ⊢
      obtain ⟨next, first, more⟩ := Option.bind_eq_some_iff.mp done
      obtain ⟨others, apart⟩ := List.pairwise_cons.mp distinct
      obtain ⟨index, member, value, looked, there, writable, converted, rfl⟩ :=
        (mergeEntry_eq_some_iff key).mp first
      have find := Table.find_of_outline (table.outline_setMember index value)
      have elsewhere : ∀ entry ∈ rest, ∀ place,
          ((table.setMember index value).find entry.1).result = .ok place → index ≠ place :=
        fun entry inside place looked' =>
          Table.index_ne_of_find (others entry inside) looked (find entry.1 ▸ looked')
      -- The first member is not written any more, so it holds what is settled for its entry.
      have there' := member_of_foldlM_mergeEntry (Table.getElem?_setMember_self there value)
        (fun entry inside looked' => elsewhere entry inside index looked' rfl) more
      have looked' : (merged.find key).result = .ok index := by
        rw [Table.find_of_outline (outline_foldlM_mergeEntry more), find]
        exact looked
      have settled := each key inner index member List.mem_cons_self looked there key value
        (Traced.value?_eq_some_iff.mpr converted)
      rw [mergeEntry_settled looked' there' writable settled]
      -- The other members hold what they held before the first entry.
      refine ih apart (fun other token place slot inside looked there => ?_) more
      rw [Table.getElem?_setMember_of_ne (elsewhere (other, token) inside place looked)] at there
      exact each other token place slot (List.mem_cons_of_mem _ inside) (find other ▸ looked) there

/-- The second merge starts from what the first one has made, or both start from the default state,
which then has another type than the one asked for. -/
theorem baseObject_again {name : TypeName} {base merged : Object}
    (start : (baseObject env field target name current).value? = some base)
    (same : merged.typeName = base.typeName) (other : String) :
    (baseObject env other target name (some (.object merged))).value? = some merged ∨
      (baseObject env other target name (some (.object merged))).value? = some base := by
  by_cases named : merged.typeName = name
  · rw [baseObject_of_typeName env other target named]
    exact Or.inl rfl
  · have given : (env.catalog.instantiate? name) = some base := by
      rw [baseObject] at start
      split at start
      · rename_i table held
        cases start
        have typed := of_decide_eq_true (Option.filter_eq_some_iff.mp held).2
        exact absurd (same.trans typed) named
      · split at start
        · rename_i template given
          cases start
          exact given
        · cases start
    have unheld : ((some (Value.object merged)).bind Value.object?).filter
        (fun table => table.typeName = name) = none := by
      simp [Value.object?, Option.filter, named]
    rw [baseObject, unheld, given]
    exact Or.inr rfl

/-- The items of an array, converted against what they were converted to. -/
theorem coerceItems_settled {items : List Token} {element : ValueType} {held values : List Value}
    {index : Nat}
    (each : ∀ (place : Nat) item, items[place]? = some item → Settles env item element held[place]?)
    (done : (coerceItems env field index items element held).value? = some values) (other : String)
    (index' : Nat) :
    (coerceItems env other index' items element values).value? = some values := by
  induction items generalizing index index' held values with
  | nil =>
      rw [coerceItems] at done ⊢
      exact done
  | cons item rest ih =>
      rw [coerceItems, Traced.value?_bind] at done
      obtain ⟨first, converted, more⟩ := Option.bind_eq_some_iff.mp done
      rw [Traced.value?_bind] at more
      obtain ⟨others, tail, made⟩ := Option.bind_eq_some_iff.mp more
      cases made
      have settled := each 0 item rfl _ first (by rwa [List.head?_eq_getElem?] at converted)
      have again := ih (fun place item given => by
        rw [List.getElem?_tail]
        exact each (place + 1) item given) tail (index' + 1)
      rw [coerceItems, Traced.value?_bind, List.head?_cons, settled, Option.bind_some,
        Traced.value?_bind, List.tail_cons, again]
      rfl

/-! ### Converting twice -/

section

variable (unambiguous : Unambiguous env token target current) (filled : ¬ token.isNull = true)
variable (lighter : ∀ {inner type held}, inner.weight < token.weight →
  Unambiguous env inner type held → Settles env inner type held)

include unambiguous filled lighter

theorem settles_collection {element : ValueType}
    (collection : target = .list element ∨ ∃ length, target = .array element length) :
    Settles env token target current := by
  intro field value converted other
  obtain ⟨items, document, counted⟩ := exists_items_of_coerce filled collection converted
  rw [coerce_collection env field counted document] at converted
  obtain ⟨values, done, rfl⟩ := Option.map_eq_some_iff.mp converted
  have each : ∀ (place : Nat) item, items[place]? = some item →
      Settles env item element (currentItems current)[place]? := fun place item given =>
    lighter (Token.weight_lt_of_item document (List.mem_of_getElem? given))
      fun entries merges => unambiguous entries (.item counted document given merges)
  rw [coerce_collection env other counted document]
  exact congrArg (Option.map Value.list) (coerceItems_settled each done other 0)

theorem settles_nested {name : TypeName}
    (nested : target = .struct name ∨ target = .reference name) :
    Settles env token target current := by
  intro field value converted other
  obtain ⟨entries, document⟩ := exists_entries_of_coerce filled nested converted
  rw [coerce_nested env field nested document] at converted
  obtain ⟨base, start, folded⟩ := Option.bind_eq_some_iff.mp converted
  obtain ⟨merged, done, rfl⟩ := Option.map_eq_some_iff.mp folded
  have again : entries.foldlM (mergeEntry env) merged = some merged :=
    foldlM_mergeEntry_settled (unambiguous entries (.here nested document))
      (fun key inner index member inside looked there =>
        lighter (Token.weight_lt_of_entry document inside) fun entries merges =>
          unambiguous entries (.entry nested document start inside looked there merges)) done
  have same := Table.typeName_of_outline (outline_foldlM_mergeEntry done)
  rw [coerce_nested env other nested document]
  obtain start' | start' := baseObject_again start same other
  · rw [start', Option.bind_some, again]
    rfl
  · rw [start', Option.bind_some, done]
    rfl

end

/-- Where no object that is merged has two keys that are the same ignoring case, what a conversion
gives is what it gives the second time. -/
theorem settles_of_unambiguous {env : Environment} {token : Token} {target : ValueType}
    {current : Option Value} (unambiguous : Unambiguous env token target current) :
    Settles env token target current := by
  have lighter : ∀ {inner type held}, inner.weight < token.weight →
      Unambiguous env inner type held → Settles env inner type held :=
    fun smaller apart => settles_of_unambiguous apart
  by_cases null : token.isNull = true
  · intro field value converted other
    rw [coerce_null null] at converted ⊢
    rwa [absent_field env field other]
  induction target with
  | nullable inner ih =>
      intro field value converted other
      rw [coerce_nullable null] at converted ⊢
      exact ih (fun entries merges => unambiguous entries (.nullable merges)) field value
        converted other
  | list element _ => exact settles_collection unambiguous null lighter (Or.inl rfl)
  | array element length _ =>
      exact settles_collection unambiguous null lighter (Or.inr ⟨length, rfl⟩)
  | struct name => exact settles_nested unambiguous null lighter (Or.inl rfl)
  | reference name => exact settles_nested unambiguous null lighter (Or.inr rfl)
  | _ =>
      intro field value converted other
      rw [coerce_field env field other]
      rw [coerce, if_neg null] at converted ⊢
      exact converted
termination_by token.weight
decreasing_by exact smaller

end Coercion
end SceneEdit
