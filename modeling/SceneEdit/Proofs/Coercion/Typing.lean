import SceneEdit.Coercion.Basic
import SceneEdit.Proofs.Coercion.Scalar

/-!
# Conversions are well typed

Whatever a token is, what it converts to is well typed for the type it is converted for. The proof
goes along the conversion: through the items of an array, through the entries of an object token
that are written one after the other into an object, and through texts that hold documents. The
object written into is well typed at every point, being the slot's own or a template.
-/

namespace SceneEdit.Coercion

open ValueType (Fillable)

/-- What a slot holds while a token is converted for it: nothing, or a value of its type. -/
def Usable (current : Option Value) (target : ValueType) : Prop :=
  ∀ value, current = some value → value = .null ∨ value.Typed Fillable target

theorem Usable.of_typed {value : Value} {target : ValueType} (typed : value.Typed Fillable target) :
    Usable (some value) target := by
  rintro _ ⟨⟩
  exact Or.inr typed

theorem Usable.of_nullable {current : Option Value} {inner : ValueType}
    (usable : Usable current (.nullable inner)) : Usable current inner := by
  intro value held
  rcases usable value held with null | typed
  · exact Or.inl null
  · cases typed with
    | absent => exact Or.inl rfl
    | present typed => exact Or.inr typed

/-- The items of a collection are of its element type. -/
theorem Usable.items {current : Option Value} {target element : ValueType}
    (usable : Usable current target) (collection : target.element? = some element)
    (plain : ∀ inner, target ≠ .nullable inner) :
    ∀ item ∈ currentItems current, item.Typed Fillable element := by
  intro item inside
  unfold currentItems at inside
  split at inside
  · rename_i items
    rcases usable _ rfl with null | typed
    · cases null
    · cases typed with
      | list each =>
          cases collection
          exact each item inside
      | array filled each =>
          cases collection
          exact each item inside
      | present typed => exact absurd rfl (plain _)
      | foreign value name => cases collection
  · cases inside

section

variable {env : Environment} (templates : env.catalog.Typed Fillable)
include templates

theorem absent_typed (field : String) {target : ValueType} (fillable : target.Fillable) :
    (absent env field target).Gives fun value => value.Typed Fillable target := by
  unfold absent
  split
  · rename_i accepts
    exact .pure (Value.typed_null accepts)
  · split
    · rename_i value zero
      exact .pure (ValueType.typed_of_zero? fillable zero)
    · split
      · split
        · rename_i given
          exact .pure (Value.typed_struct_iff.mpr (templates.instantiate? given))
        · exact .throw _
      · exact .throw _

theorem baseObject_typed (field : String) {target : ValueType} {name : TypeName}
    {current : Option Value} (nested : target = .struct name ∨ target = .reference name)
    (usable : Usable current target) :
    (baseObject env field target name current).Gives fun table =>
      table.typeName = name ∧ table.Typed Fillable := by
  rw [baseObject]
  split
  · rename_i table kept
    obtain ⟨held, same⟩ := Option.filter_eq_some_iff.mp kept
    obtain ⟨value, present, object⟩ := Option.bind_eq_some_iff.mp held
    refine .pure ⟨of_decide_eq_true same, ?_⟩
    cases value <;> cases object
    rcases usable _ present with null | typed
    · cases null
    · rcases nested with rfl | rfl
      · exact (Value.typed_struct_iff.mp typed).2
      · cases typed with
        | reference typed => exact (Value.typed_struct_iff.mp typed).2
  · split
    · rename_i given
      exact .pure (templates.instantiate? given)
    · exact .throw _

omit templates in
/-- A conversion that may fail with a reason. -/
theorem forField_typed {α : Type} {field : String} {target target' : ValueType}
    {x : Except String α} {make : α → Value}
    (each : ∀ a, x = .ok a → (make a).Typed Fillable target') :
    (forField field target (x.map make)).Gives fun value => value.Typed Fillable target' := by
  refine .ofExcept fun value given => ?_
  obtain ⟨a, read, rfl⟩ := map_eq_ok_iff.mp (mapError_eq_ok_iff.mp given)
  exact each a read

/-- Whatever a conversion gives is well typed. -/
theorem coerce_typed (field : String) (token : Token) (target : ValueType) (current : Option Value)
    (fillable : target.Fillable) (usable : Usable current target) :
    (coerce env field token target current).Gives fun value => value.Typed Fillable target := by
  refine coerce.induct
    (fun field token target current => target.Fillable → Usable current target →
      (coerce env field token target current).Gives fun value => value.Typed Fillable target)
    (fun field target object entries => object.Typed Fillable →
      (mergeEntries env field target object entries).Gives fun merged =>
        merged.typeName = object.typeName ∧ merged.Typed Fillable)
    (fun field index items element current => element.Fillable →
      (∀ item ∈ current, item.Typed Fillable element) →
      (coerceItems env field index items element current).Gives fun values =>
        values.length = items.length ∧ ∀ value ∈ values, value.Typed Fillable element)
    ?null ?nullable ?bool ?int ?long ?float ?string ?enum ?vector ?resource ?list ?noList ?array
    ?miscounted ?noArray ?struct ?noStruct ?reference ?noReference ?foreign ?merged ?merge ?empty
    ?item field token target current fillable usable
  case null =>
    intro field token target current null fillable usable
    rw [coerce_null null]
    exact absent_typed templates field fillable
  case nullable =>
    intro field token current filled inner ih fillable usable
    rw [coerce_nullable filled]
    exact (ih fillable usable.of_nullable).mono fun _ typed => .present typed
  case bool =>
    intro field token current filled fillable usable
    rw [coerce, if_neg filled]
    exact forField_typed fun b _ => .bool b
  case int =>
    intro field token current filled fillable usable
    rw [coerce, if_neg filled]
    exact forField_typed fun _ => typed_int
  case long =>
    intro field token current filled fillable usable
    rw [coerce, if_neg filled]
    exact forField_typed fun _ => typed_long
  case float =>
    intro field token current filled fillable usable
    rw [coerce, if_neg filled]
    exact forField_typed fun _ => typed_float
  case string =>
    intro field token current filled fillable usable
    rw [coerce, if_neg filled]
    exact forField_typed fun text _ => .string text
  case enum =>
    intro field token current filled type fillable usable
    rw [coerce, if_neg filled]
    exact forField_typed fun _ => typed_enum
  case vector =>
    intro field token current filled kind fillable usable
    rw [coerce, if_neg filled]
    exact forField_typed fun _ => typed_vector
  case resource =>
    intro field token current filled name fillable usable
    rw [coerce, if_neg filled]
    exact typed_asset
  case list =>
    intro field token current filled element items document ih fillable usable
    rw [coerce_eq_items env field (Or.inl rfl) document]
    refine .map ((ih fillable (usable.items rfl (by simp))).mono fun values typed => ?_)
    exact .list typed.2
  case array =>
    intro field token current filled element items document ih fillable usable
    rw [coerce_eq_items env field (Or.inr rfl) document]
    refine .map ((ih fillable.2 (usable.items rfl (by simp))).mono fun values typed => ?_)
    exact .array typed.1 typed.2
  case miscounted =>
    intro field token current filled element length items document other fillable usable
    rw [coerce_array_eq filled, document]
    dsimp only
    rw [if_neg other]
    exact .throw _
  case noList =>
    intro field token current filled element wrong fillable usable
    rw [coerce_of_ne_arr filled (Or.inl rfl) wrong]
    exact .throw _
  case noArray =>
    intro field token current filled element length wrong fillable usable
    rw [coerce_of_ne_arr filled (Or.inr ⟨length, rfl⟩) wrong]
    exact .throw _
  case struct =>
    intro field token current filled name entries document ih fillable usable
    rw [coerce_eq_merge env field (Or.inl rfl) document]
    refine (baseObject_typed templates field (Or.inl rfl) usable).bind fun base based => ?_
    refine .map ((ih base based.2).mono fun merged typed => ?_)
    exact Value.typed_struct_iff.mpr ⟨typed.1.trans based.1, typed.2⟩
  case reference =>
    intro field token current filled name entries document ih fillable usable
    rw [coerce_eq_merge env field (Or.inr rfl) document]
    refine (baseObject_typed templates field (Or.inr rfl) usable).bind fun base based => ?_
    refine .map ((ih base based.2).mono fun merged typed => ?_)
    exact .reference (Value.typed_struct_iff.mpr ⟨typed.1.trans based.1, typed.2⟩)
  case noStruct =>
    intro field token current filled name wrong fillable usable
    rw [coerce_of_ne_obj filled (Or.inl rfl) wrong]
    exact .throw _
  case noReference =>
    intro field token current filled name wrong fillable usable
    rw [coerce_of_ne_obj filled (Or.inr rfl) wrong]
    exact .throw _
  case foreign =>
    intro field token current filled name fillable usable
    rw [coerce, if_neg filled]
    exact .throw _
  case merged =>
    intro field target object typed
    rw [mergeEntries]
    exact .pure ⟨rfl, typed⟩
  case merge =>
    intro field target object key token rest skip value write typed
    rw [mergeEntries]
    refine (Traced.Gives.any _).bind fun index _ => ?_
    split
    · exact skip typed
    · rename_i member there
      obtain ⟨fillable, fits⟩ :=
        typed _ (Table.slot_of_member (List.mem_of_getElem? there))
      split
      · refine (value member fillable (.of_typed fits)).bind fun new fits' => ?_
        exact write index new (typed.setMember there fits')
      · exact .throw _
  case empty =>
    intro field index element current fillable typed
    rw [coerceItems]
    exact .pure ⟨rfl, by simp⟩
  case item =>
    intro field index element current item rest first more fillable typed
    rw [coerceItems]
    have head : Usable current.head? element := fun value held =>
      Or.inr (typed value (List.mem_of_mem_head? held))
    refine (first fillable head).bind fun value fits => ?_
    have tail : ∀ item ∈ current.tail, item.Typed Fillable element := fun item inside =>
      typed item (List.mem_of_mem_tail inside)
    refine (more fillable tail).bind fun values others => .pure ?_
    exact ⟨congrArg (· + 1) others.1, List.forall_mem_cons.mpr ⟨fits, others.2⟩⟩

end
end SceneEdit.Coercion
