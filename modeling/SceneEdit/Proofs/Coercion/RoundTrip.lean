import SceneEdit.Coercion.Basic
import SceneEdit.Proofs.Log
import SceneEdit.Proofs.Number.Exact
import SceneEdit.Proofs.Value.Typing
import SceneEdit.Value.Token

/-!
# Tokens of plain values convert back

A plain type is built from truth values, numbers, texts and vectors with collections and absence.
A well-typed value of a plain type is what its own token converts to (`coerce_toToken`), for any
field and whatever the field holds. The proof goes along the typing: simple values by what their
conversion does, collections item by item, and absence because only an absent value has a null
token.
-/

namespace SceneEdit

/-- Built from truth values, numbers, texts and vectors with collections and absence. -/
def ValueType.isPlain : ValueType → Bool
  | bool | int | long | float | string | vector _ => true
  | list element => element.isPlain
  | array element _ => element.isPlain
  | nullable inner => inner.isPlain
  | _ => false

namespace Coercion

variable {permitted : ValueType → Prop} {hidden : Bool} {env : Environment}

/-! ### Simple values -/

theorem toInt_int {i : Int} (low : -(twoTo 31 : Int) ≤ i) (high : i < twoTo 31) :
    toInt (.int i) = .ok i := by
  have narrow : fitsInt i = true := decide_eq_true ⟨low, high⟩
  have wide : fitsLong i = true := by
    refine decide_eq_true ⟨?_, ?_⟩
    · exact Int.le_trans (by decide) low
    · exact Int.lt_trans high (by decide)
  rw [toInt, Token.int, toLong, if_pos wide]
  exact if_pos narrow

theorem toLong_int {i : Int} (low : -(twoTo 63 : Int) ≤ i) (high : i < twoTo 63) :
    toLong (.int i) = .ok i := by
  have wide : fitsLong i = true := decide_eq_true ⟨low, high⟩
  rw [Token.int, toLong, if_pos wide]

theorem toFloat_real {x : Double} (small : x.AtMost (Binary.largest .single)) :
    toFloat (.num (.real x)) = .ok x :=
  if_pos (Binary.fitsSingle_of_atMost small)

theorem componentOfToken_component {x : Single} (finite : x.isFinite = true) :
    componentOfToken (.component x) = .ok x := by
  rw [Token.component, if_pos finite, componentOfToken, Number.toDouble, toComponent,
    if_pos (Binary.fitsSingle_widen finite), Binary.narrow_widen finite]

theorem mapM_component {components : List Single}
    (finite : ∀ component ∈ components, component.isFinite = true) :
    (components.map Token.component).mapM componentOfToken = .ok components := by
  induction components with
  | nil => rfl
  | cons first rest ih =>
      obtain ⟨head, tail⟩ := List.forall_mem_cons.mp finite
      rw [List.map_cons, List.mapM_cons, componentOfToken_component head, ih tail]
      rfl

theorem ofComponents?_components (v : Vec) : Vec.ofComponents? v.kind v.components = some v := by
  cases v <;> rfl

theorem toVector_components {v : Vec}
    (finite : ∀ component ∈ v.components, component.isFinite = true) :
    toVector v.kind (.arr (v.components.map Token.component)) = .ok v := by
  rw [toVector, vectorComponents, mapM_component finite]
  dsimp only [bind, Except.bind]
  rw [ofComponents?_components]

/-! ### Collections and absence -/

/-- Items whose tokens convert one by one convert together. -/
theorem coerceItems_itemTokens {element : ValueType} {items : List Value} {f : Value → Value}
    (each : ∀ item ∈ items, ∀ field current,
      (coerce env field (item.toToken hidden) element current).result = .ok (f item))
    (field : String) (index : Nat) (current : List Value) :
    (coerceItems env field index (Value.itemTokens hidden items) element current).result =
      .ok (items.map f) := by
  induction items generalizing index current with
  | nil =>
      rw [Value.itemTokens, coerceItems]
      rfl
  | cons item rest ih =>
      obtain ⟨head, tail⟩ := List.forall_mem_cons.mp each
      rw [Value.itemTokens, coerceItems, Traced.result_bind, head]
      show Traced.result (_ >>= _) = _
      rw [Traced.result_bind, ih tail]
      rfl

theorem length_itemTokens (items : List Value) :
    (Value.itemTokens hidden items).length = items.length := by
  induction items with
  | nil => rfl
  | cons item rest ih => rw [Value.itemTokens, List.length_cons, List.length_cons, ih]

/-- Only an absent value has a null token. -/
theorem toToken_filled {value : Value} {type : ValueType} (typed : value.Typed permitted type)
    (plain : type.isPlain = true) (present : value.isNull = false) :
    ¬ (value.toToken hidden).isNull = true := by
  induction typed with
  | float finite small =>
      rw [Value.toToken, Token.float, if_pos finite]
      exact Bool.false_ne_true
  | present typed ih => exact ih plain present
  | foreign => cases plain
  | noResource | noReference | absent => cases present
  | _ =>
      rw [Value.toToken]
      exact Bool.false_ne_true

/-- A plain value is what its token converts to. -/
theorem coerce_toToken {value : Value} {type : ValueType} (typed : value.Typed permitted type)
    (plain : type.isPlain = true) (field : String) (current : Option Value) :
    (coerce env field (value.toToken hidden) type current).result = .ok value := by
  induction typed generalizing field current with
  | bool b | string text =>
      rw [Value.toToken, coerce]
      rfl
  | int low high =>
      rw [Value.toToken, coerce]
      show (forField field .int ((toInt (.int _)).map Value.int)).result = _
      rw [toInt_int low high]
      rfl
  | long low high =>
      rw [Value.toToken, coerce]
      show (forField field .long ((toLong (.int _)).map Value.int)).result = _
      rw [toLong_int low high]
      rfl
  | float finite small =>
      rw [Value.toToken, Token.float, if_pos finite, coerce]
      show (forField field .float ((toFloat (.num (.real _))).map Value.float)).result = _
      rw [toFloat_real small]
      rfl
  | vector same finite =>
      subst same
      rw [Value.toToken, coerce]
      show (forField field _ ((toVector _ (.arr _)).map Value.vector)).result = _
      rw [toVector_components finite]
      rfl
  | list each ih =>
      have items := coerceItems_itemTokens (f := id) (fun item inside => ih item inside plain)
        field 0 (currentItems current)
      rw [Value.toToken, coerce_eq_items env field (Or.inl rfl) rfl, Traced.result_map, items,
        List.map_id]
      rfl
  | array filled each ih =>
      have items := coerceItems_itemTokens (f := id) (fun item inside => ih item inside plain)
        field 0 (currentItems current)
      subst filled
      rw [Value.toToken, coerce_eq_items env field (Or.inr (by rw [length_itemTokens])) rfl,
        Traced.result_map, items, List.map_id]
      rfl
  | absent inner =>
      rw [Value.toToken, coerce]
      rfl
  | @present value inner typed ih =>
      cases present : value.isNull with
      | true =>
          cases value <;> cases present
          rw [Value.toToken, coerce]
          rfl
      | false =>
          rw [coerce_nullable (toToken_filled typed plain present)]
          exact ih plain field current
  | _ => cases plain

end Coercion
end SceneEdit
