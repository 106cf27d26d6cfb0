import SceneEdit.Proofs.Coercion.Merge

/-!
# What null is converted to

Null stands for absence where a type accepts it, and for the zero value of the type, or the default
state of an object, where it does not. So the value itself is absent only where it may be
(`absent_filled`). A fixed array is filled with the zero value of its items, though, and where the
items have none of their own, which are objects and enumerations without labels, it is filled with
absence, while null converted for such an item alone gives the default state or fails. Through
nested arrays this happens at any depth: absence is nowhere it is not accepted exactly if every
array that has items has items with a zero value (`filled_zero_iff`).
-/

namespace SceneEdit

/-- Absence is only where the types accept it: in the value, and in the items of fixed arrays. -/
def Value.Filled : ValueType → Value → Prop
  | .array element length, value =>
    ∃ items, value = .list items ∧ items.length = length ∧ ∀ item ∈ items, item.Filled element
  | type, value => value.isNull = true → type.acceptsAbsence = true

/-- Every fixed array that has items has items with a zero value of their own. -/
def ValueType.FillsItself : ValueType → Prop
  | .array element length => length = 0 ∨ element.zero?.isSome = true ∧ element.FillsItself
  | _ => True

namespace Coercion

variable {env : Environment} {field : String} {target element : ValueType} {value : Value}

/-! ### Zero values -/

theorem forall_mem_replicate_iff {α : Type} {holds : α → Prop} {length : Nat} {item : α} :
    (∀ other ∈ List.replicate length item, holds other) ↔ length = 0 ∨ holds item := by
  constructor
  · intro each
    by_cases empty : length = 0
    · exact Or.inl empty
    · exact Or.inr (each item (List.mem_replicate.mpr ⟨empty, rfl⟩))
  · rintro (rfl | holds) other inside
    · cases inside
    · exact (List.eq_of_mem_replicate inside).symm ▸ holds

/-- Types that accept absence have it as their zero value. -/
theorem zero?_of_acceptsAbsence (accepts : target.acceptsAbsence = true) :
    target.zero? = some .null := by
  cases target <;> first | rfl | cases accepts

/-- Types without a zero value do not accept absence. -/
theorem not_filled_null (none : target.zero? = none) : ¬ Value.null.Filled target := by
  intro filled
  cases target with
  | array element length => cases none
  | _ =>
      have accepts := filled rfl
      rw [zero?_of_acceptsAbsence accepts] at none
      cases none

/-- A zero value has absence only where it is accepted, if arrays can be filled. -/
theorem filled_zero_iff (zero : target.zero? = some value) :
    value.Filled target ↔ target.FillsItself := by
  induction target generalizing value with
  | array element length ih =>
      cases zero
      have items : (Value.list (.replicate length (element.zero?.getD .null))).Filled
          (.array element length) ↔ length = 0 ∨ (element.zero?.getD .null).Filled element := by
        rw [← forall_mem_replicate_iff]
        constructor
        · rintro ⟨_, ⟨⟩, -, each⟩
          exact each
        · intro each
          exact ⟨_, rfl, List.length_replicate, each⟩
      rw [items, ValueType.FillsItself]
      refine or_congr_right ?_
      cases own : element.zero? with
      | none => simpa using not_filled_null own
      | some filler => simpa using ih own
  | _ =>
      refine iff_of_true (fun null => ?_) trivial
      cases accepts : ValueType.acceptsAbsence _ with
      | true => rfl
      | false => exact (isNull_of_zero? accepts zero).symm.trans null

/-! ### Null -/

theorem coerce_of_zero? {zero : Value} (own : target.zero? = some zero) (current : Option Value) :
    (coerce env field .null target current).result = .ok zero := by
  rw [coerce_null rfl]
  unfold absent
  split
  · rename_i accepts
    rw [zero?_of_acceptsAbsence accepts] at own
    cases own
    rfl
  · rw [own]
    rfl

/-- An array is filled with one and the same item. -/
theorem coerce_null_array {length : Nat} (current : Option Value) :
    (coerce env field .null (.array element length) current).result =
      .ok (.list (.replicate length (element.zero?.getD .null))) :=
  coerce_of_zero? rfl current

/-- What null is converted to for a type without a zero value is not absent. -/
theorem coerce_null_ne_null (none : target.zero? = none) (current : Option Value) :
    (coerce env field .null target current).result ≠ .ok .null := by
  intro given
  have accepts := acceptsAbsence_of_coerce given rfl
  rw [zero?_of_acceptsAbsence accepts] at none
  cases none

/-- Where a type does not accept absence, null is converted to a value that is not absent itself.
Absence is nowhere inside of it that does not accept it exactly if every array with items has items
with a zero value. And an array gets as many items as it has, which are what null is converted to
for an item exactly if there are none or the items have a zero value. -/
theorem null_converts_iff (env : Environment) (field : String) (target : ValueType)
    (current : Option Value) (value : Value) (required : target.acceptsAbsence = false)
    (converted : (coerce env field .null target current).result = .ok value) :
    value.isNull = false ∧ (value.Filled target ↔ target.FillsItself) ∧
    ∀ element length, target = .array element length → ∃ items, value = .list items ∧
      items.length = length ∧
      ((∀ item ∈ items, (coerce env field .null element none).result = .ok item) ↔
        length = 0 ∨ element.zero?.isSome = true) := by
  refine ⟨coerce_filled required value converted, ?_, ?_⟩
  · cases own : target.zero? with
    | some zero =>
        cases converted.symm.trans (coerce_of_zero? own current)
        exact filled_zero_iff own
    | none =>
        have plain : target.FillsItself := by
          cases target with
          | array => cases own
          | _ => trivial
        refine iff_of_true ?_ plain
        have present := coerce_filled required value converted
        cases target with
        | array => cases own
        | _ => exact fun null => absurd (present.symm.trans null) Bool.false_ne_true
  · rintro element length rfl
    cases converted.symm.trans (coerce_null_array current)
    refine ⟨_, rfl, List.length_replicate, ?_⟩
    rw [forall_mem_replicate_iff]
    refine or_congr_right ?_
    cases own : element.zero? with
    | none => exact iff_of_false (coerce_null_ne_null own none) Bool.false_ne_true
    | some filler => exact iff_of_true (coerce_of_zero? own none) rfl

/-! ### Points -/

def origin : Object := ⟨⟨"Point"⟩, [⟨"x", .field, .int, true, .int 0⟩], none⟩

/-- A point starts at the origin. -/
def plane : Environment :=
  { catalog := { entries := [⟨⟨⟨"Point"⟩, "Game", .value⟩, some origin⟩] } }

/-- A row of two points. -/
def segment : ValueType := .array (.struct ⟨"Point"⟩) 2

/-- Null for two rows of points leaves points absent, and for two rows of numbers it does not. -/
theorem null_converts_iff_of_rows :
    let grid (rows : Value) : Value := .list [rows, rows]
    (coerce plane "f" .null (.array segment 2) none).result =
        .ok (grid (.list [.null, .null])) ∧
      ¬ (grid (.list [.null, .null])).Filled (.array segment 2) ∧
      (grid (.list [.int 0])).Filled (.array (.array .int 1) 2) := by
  intro grid
  have points : (coerce plane "f" .null (.array segment 2) none).result =
      .ok (grid (.list [.null, .null])) := coerce_null_array none
  have numbers : (coerce plane "f" .null (.array (.array .int 1) 2) none).result =
      .ok (grid (.list [.int 0])) := coerce_null_array none
  refine ⟨points, ?_, ?_⟩
  · rw [(null_converts_iff plane "f" _ none _ rfl points).2.1]
    rintro (⟨⟨⟩⟩ | ⟨-, ⟨⟨⟩⟩ | ⟨⟨⟩, -⟩⟩)
  · rw [(null_converts_iff plane "f" _ none _ rfl numbers).2.1]
    exact Or.inr ⟨rfl, Or.inr ⟨rfl, trivial⟩⟩

/-- Null for a row of points leaves every point absent, though null for a point is the origin and a
point may not be absent. -/
theorem null_leaves_points_absent :
    (coerce plane "f" .null segment none).result = .ok (.list [.null, .null]) ∧
      (∀ field current,
        (coerce plane field .null (.struct ⟨"Point"⟩) current).result = .ok (.object origin)) ∧
      ¬ (Value.list [.null, .null]).Filled segment ∧
      ¬ ∀ (env : Environment) (field : String) (target : ValueType) (current : Option Value)
          (value : Value), target.acceptsAbsence = false →
        (coerce env field .null target current).result = .ok value →
        value.isNull = false ∧ ∀ element length, target = .array element length →
          ∃ items, value = .list items ∧ items.length = length ∧
            ∀ item ∈ items, (coerce env field .null element none).result = .ok item := by
  have row : (coerce plane "f" .null segment none).result = .ok (.list [.null, .null]) :=
    coerce_null_array none
  have point (field : String) (current : Option Value) :
      (coerce plane field .null (.struct ⟨"Point"⟩) current).result = .ok (.object origin) := by
    rw [coerce_null rfl]
    rfl
  refine ⟨row, point, ?_, fun claimed => ?_⟩
  · rintro ⟨_, ⟨⟩, -, each⟩
    exact Bool.false_ne_true (each .null (List.mem_cons_self ..) rfl)
  · obtain ⟨_, ⟨⟩, -, each⟩ := (claimed plane "f" segment none _ rfl row).2 _ _ rfl
    cases (point "f" none).symm.trans (each .null (List.mem_cons_self ..))

end Coercion
end SceneEdit
