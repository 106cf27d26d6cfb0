import SceneEdit.Proofs.Coercion.RoundTrip

/-!
# Writing the label of an enumeration

A label is read as the text that it is, and a text is converted to the first label that matches it
ignoring case. An exactly spelled label does not come first, so what a label turns into is the
first one of its spelling (`EnumType.leading`): itself, unless a label before it differs from it in
case only. Through collections and absence every label of a value turns into that one, each on its
own (`own_label_kept_iff`).
-/

namespace SceneEdit

/-- The enumeration whose labels a type holds, as they are or in collections and absence. -/
def ValueType.enumeration? : ValueType → Option EnumType
  | enum type => some type
  | list element => element.enumeration?
  | array element _ => element.enumeration?
  | nullable inner => inner.enumeration?
  | _ => none

/-- The first label that matches a label ignoring case. -/
def EnumType.leading (type : EnumType) (label : String) : String :=
  (type.variants.find? fun other => Text.sameIgnoringCase other label).getD label

namespace Value

mutual

/-- A value with other labels, in itself and in the lists it holds. -/
def relabel (f : String → String) : Value → Value
  | enum label => enum (f label)
  | list items => list (relabelItems f items)
  | other => other

def relabelItems (f : String → String) : List Value → List Value
  | [] => []
  | item :: rest => relabel f item :: relabelItems f rest

end

theorem relabelItems_eq_map (f : String → String) (items : List Value) :
    relabelItems f items = items.map (relabel f) := by
  induction items with
  | nil => rfl
  | cons item rest ih => rw [relabelItems, ih, List.map_cons]

/-- A label is in a value, as it is or somewhere in a list. -/
inductive HoldsLabel (label : String) : Value → Prop
  | enum : HoldsLabel label (.enum label)
  | item {items : List Value} {item : Value} (inside : item ∈ items)
      (holds : HoldsLabel label item) : HoldsLabel label (.list items)

end Value

/-! ### The first of its spelling -/

/-- What is found in a list is an element that satisfies the condition itself exactly if no element
before it does. -/
theorem find?_getD_eq_self_iff {α : Type} [DecidableEq α] {p : α → Bool} {items : List α} {a : α}
    (inside : a ∈ items) (holds : p a = true) :
    (items.find? p).getD a = a ↔ ∀ other ∈ items.takeWhile (· ≠ a), ¬ p other = true := by
  induction items with
  | nil => cases inside
  | cons first rest ih =>
      by_cases here : first = a
      · subst here
        simp [holds]
      · have later : a ∈ rest := List.mem_of_ne_of_mem (Ne.symm here) inside
        rw [List.takeWhile_cons_of_pos (by simpa using here), List.forall_mem_cons]
        cases matched : p first with
        | true => simp [matched, here]
        | false => simpa [matched] using ih later

namespace EnumType

variable {type : EnumType} {label : String}

/-- A label leads if no label before it matches it ignoring case. -/
theorem leading_eq_self_iff (declared : label ∈ type.variants) :
    type.leading label = label ↔
      ∀ other ∈ type.variants.takeWhile (· ≠ label), ¬ Text.sameIgnoringCase other label = true :=
  find?_getD_eq_self_iff declared (Text.sameIgnoringCase_refl label)

theorem leading_spec (declared : label ∈ type.variants) :
    type.variants.find? (fun other => Text.sameIgnoringCase other label) =
      some (type.leading label) := by
  rw [leading]
  cases found : type.variants.find? fun other => Text.sameIgnoringCase other label with
  | some first => rfl
  | none =>
      exact absurd (Text.sameIgnoringCase_refl label) (List.find?_eq_none.mp found label declared)

/-- Every label leads exactly if no two labels match ignoring case. -/
theorem leading_eq_self_forall_iff : (∀ label ∈ type.variants, type.leading label = label) ↔
    ∀ first ∈ type.variants, ∀ second ∈ type.variants,
      Text.sameIgnoringCase first second = true → first = second := by
  constructor
  · intro leads first inside second inside' matched
    have same : type.leading first = type.leading second := by
      have alike (other : String) :
          Text.sameIgnoringCase other first = Text.sameIgnoringCase other second := by
        rw [Text.sameIgnoringCase, Text.sameIgnoringCase, beq_iff_eq.mp matched]
      rw [← Option.some.injEq, ← leading_spec inside, ← leading_spec inside']
      simp only [alike]
    rw [← leads first inside, same, leads second inside']
  · intro apart label declared
    have found := leading_spec declared
    have matched := List.find?_some found
    exact apart _ (List.mem_of_find?_eq_some found) label declared matched

end EnumType

namespace Value

variable {permitted : ValueType → Prop} {hidden : Bool} {type : EnumType} {value : Value}
  {target : ValueType}

/-- Only an absent value has a null token. -/
theorem toToken_labels_filled (holds : target.enumeration? = some type)
    (typed : value.Typed permitted target) (present : value.isNull = false) :
    ¬ (value.toToken hidden).isNull = true := by
  induction typed with
  | present typed ih => exact ih holds present
  | enum | list | array =>
      rw [Value.toToken]
      exact Bool.false_ne_true
  | absent => cases present
  | _ => cases holds

theorem relabel_list_eq_self_iff {f : String → String} {items : List Value}
    (each : ∀ item ∈ items, (item.relabel f = item ↔
      ∀ label, item.HoldsLabel label → f label = label)) :
    (list items).relabel f = list items ↔
      ∀ label, (list items).HoldsLabel label → f label = label := by
  have fixed : items.map (relabel f) = items.map id ↔ ∀ item ∈ items, item.relabel f = item :=
    List.map_inj_left
  rw [List.map_id] at fixed
  rw [relabel, relabelItems_eq_map, Value.list.injEq, fixed]
  constructor
  · intro kept label holds
    cases holds with
    | item inside holds => exact (each _ inside).mp (kept _ inside) label holds
  · intro kept item inside
    exact (each item inside).mpr fun label holds => kept label (.item inside holds)

/-- A value keeps its labels exactly if each label in it is its own. -/
theorem relabel_eq_self_iff {f : String → String} (holds : target.enumeration? = some type)
    (typed : value.Typed permitted target) :
    value.relabel f = value ↔ ∀ label, value.HoldsLabel label → f label = label := by
  induction typed with
  | @enum _ label declared =>
      rw [relabel, Value.enum.injEq]
      refine ⟨?_, fun kept => kept label .enum⟩
      rintro kept _ ⟨⟩
      exact kept
  | list each ih => exact relabel_list_eq_self_iff fun item inside => ih item inside holds
  | array filled each ih => exact relabel_list_eq_self_iff fun item inside => ih item inside holds
  | absent inner => exact iff_of_true rfl nofun
  | present typed ih => exact ih holds
  | _ => cases holds

/-- The labels in a well-typed value are declared. -/
theorem HoldsLabel.declared {label : String} (inside : value.HoldsLabel label)
    (holds : target.enumeration? = some type) (typed : value.Typed permitted target) :
    label ∈ type.variants := by
  induction typed with
  | enum declared =>
      cases holds
      cases inside
      exact declared
  | list each ih | array filled each ih =>
      cases inside with
      | item member within => exact ih _ member within holds
  | absent inner => cases inside
  | present typed ih => exact ih inside holds
  | _ => cases holds

end Value

namespace Coercion

variable {permitted : ValueType → Prop} {hidden : Bool} {env : Environment} {type : EnumType}

/-- A label without blanks around it stands for the first one of its spelling. -/
theorem toLabel_own {label : String} (declared : label ∈ type.variants)
    (unblank : Text.trim label = label) : toLabel type (.str label) = .ok (type.leading label) := by
  rw [toLabel, unblank, EnumType.leading_spec declared]

/-- Every label of a value turns into the first one of its spelling. -/
theorem coerce_relabel {target : ValueType} {value : Value}
    (unblank : ∀ label ∈ type.variants, Text.trim label = label)
    (holds : target.enumeration? = some type) (typed : value.Typed permitted target)
    (field : String) (current : Option Value) :
    (coerce env field (value.toToken hidden) target current).result =
      .ok (value.relabel type.leading) := by
  induction typed generalizing field current with
  | enum declared =>
      cases holds
      rw [Value.toToken, coerce]
      show (forField field _ ((toLabel type (.str _)).map Value.enum)).result = _
      rw [toLabel_own declared (unblank _ declared)]
      rfl
  | list each ih =>
      have items := coerceItems_itemTokens (fun item inside => ih item inside holds) field 0
        (currentItems current)
      rw [Value.toToken, coerce_eq_items env field (Or.inl rfl) rfl, Traced.result_map, items,
        Value.relabel, Value.relabelItems_eq_map]
      rfl
  | array filled each ih =>
      have items := coerceItems_itemTokens (fun item inside => ih item inside holds) field 0
        (currentItems current)
      subst filled
      rw [Value.toToken, coerce_eq_items env field (Or.inr (by rw [length_itemTokens])) rfl,
        Traced.result_map, items, Value.relabel, Value.relabelItems_eq_map]
      rfl
  | absent inner =>
      rw [Value.toToken, coerce]
      rfl
  | @present value inner typed ih =>
      cases present : value.isNull with
      | true =>
          cases value <;> cases present
          rw [Value.toToken, coerce]
          rfl
      | false =>
          have inside : inner.enumeration? = some type := holds
          rw [coerce_nullable (Value.toToken_labels_filled inside typed present)]
          exact ih inside field current
  | _ => cases holds

/-- Writing the token of a value that holds labels of an enumeration never fails, and every label
turns into the first one that matches it ignoring case. So the value is kept exactly if no label in
it has such a label before it, and every label of the enumeration is kept exactly if no two of them
match ignoring case. -/
theorem own_label_kept_iff (env : Environment) (field : String) (hidden : Bool)
    (current : Option Value) {target : ValueType} {value : Value}
    (unblank : ∀ label ∈ type.variants, Text.trim label = label)
    (holds : target.enumeration? = some type) (typed : value.Typed permitted target) :
    (coerce env field (value.toToken hidden) target current).result =
        .ok (value.relabel type.leading) ∧
      (value.relabel type.leading = value ↔ ∀ label, value.HoldsLabel label →
        ∀ other ∈ type.variants.takeWhile (· ≠ label),
          ¬ Text.sameIgnoringCase other label = true) ∧
      ((∀ label ∈ type.variants,
          (coerce env field (.str label) (.enum type) current).result = .ok (.enum label)) ↔
        ∀ first ∈ type.variants, ∀ second ∈ type.variants,
          Text.sameIgnoringCase first second = true → first = second) := by
  refine ⟨coerce_relabel unblank holds typed field current, ?_, ?_⟩
  · rw [Value.relabel_eq_self_iff holds typed]
    exact forall₂_congr fun label inside =>
      EnumType.leading_eq_self_iff (inside.declared holds typed)
  · rw [← EnumType.leading_eq_self_forall_iff]
    refine forall₂_congr fun label declared => ?_
    have single : (Value.enum label).Typed permitted (.enum type) := .enum declared
    have given : (coerce env field ((Value.enum label).toToken hidden) (.enum type)
        current).result = .ok ((Value.enum label).relabel type.leading) :=
      coerce_relabel unblank rfl single field current
    rw [Value.toToken, Value.relabel] at given
    rw [given, Except.ok.injEq, Value.enum.injEq]

/-! ### Switches -/

/-- Two labels of the three differ in case only. -/
def switchMode : EnumType := ⟨⟨"Mode"⟩, ["on", "ON", "Off"]⟩

theorem switchMode_unblank : ∀ label ∈ switchMode.variants, Text.trim label = label := by
  decide +kernel

/-- In rows of switches the second of the two labels turns into the first, and the rest is kept. -/
theorem own_label_kept_iff_of_switches :
    let rows : ValueType := .nullable (.list (.array (.enum switchMode) 2))
    let row (label : String) : Value := .list [.list [.enum label, .enum "Off"]]
    (coerce {} "f" ((row "ON").toToken true) rows none).result = .ok (row "on") ∧
      (coerce {} "f" ((row "on").toToken true) rows none).result = .ok (row "on") := by
  intro rows row
  have typed (label : String) (declared : label ∈ switchMode.variants) :
      (row label).Typed (fun _ => True) rows := by
    refine .present (.list (List.forall_mem_singleton.mpr (.array rfl ?_)))
    exact List.forall_mem_cons.mpr ⟨.enum declared, List.forall_mem_singleton.mpr
      (.enum (by decide))⟩
  constructor
  · exact (own_label_kept_iff {} "f" true none switchMode_unblank rfl (typed "ON" (by decide))).1
  · exact (own_label_kept_iff {} "f" true none switchMode_unblank rfl (typed "on" (by decide))).1

/-- The labels of a switch differ and have no blanks around them, but one is not kept. -/
theorem own_label_not_kept :
    switchMode.variants.Nodup ∧ (∀ label ∈ switchMode.variants, Text.trim label = label) ∧
      (coerce {} "f" ((Value.enum "ON").toToken true) (.enum switchMode)
        (some (.enum "ON"))).result = .ok (.enum "on") ∧
      ¬ ∀ (type : EnumType) (label : String), type.variants.Nodup →
        (∀ other ∈ type.variants, Text.trim other = other) → label ∈ type.variants →
        (coerce {} "f" ((Value.enum label).toToken true) (.enum type)
          (some (.enum label))).result = .ok (.enum label) := by
  have distinct : switchMode.variants.Nodup := by decide
  have declared : "ON" ∈ switchMode.variants := by decide
  have typed : (Value.enum "ON").Typed (fun _ => True) (.enum switchMode) := .enum declared
  have turned : (coerce {} "f" ((Value.enum "ON").toToken true) (.enum switchMode)
      (some (.enum "ON"))).result = .ok (.enum "on") :=
    coerce_relabel switchMode_unblank rfl typed "f" _
  refine ⟨distinct, switchMode_unblank, turned, fun claimed => ?_⟩
  have kept := turned.symm.trans (claimed switchMode "ON" distinct switchMode_unblank declared)
  simp at kept

end Coercion
end SceneEdit
