import SceneEdit.Coercion.Resource
import SceneEdit.Coercion.Scalar
import SceneEdit.Coercion.Vector
import SceneEdit.Proofs.Log
import SceneEdit.Proofs.Value.Typing

/-!
# Simple conversions stay in range

What a token converts to fits the type it was converted for: integers fit their width, floats and
components are finite, labels are declared, vectors have their kind and assets their type.
-/

namespace SceneEdit.Coercion

variable {permitted : ValueType → Prop}

/-! ### Integers and floats -/

theorem fitsLong_of_integral {x : Double} {i : Int} (given : integral x = .ok i) :
    fitsLong i = true := by
  rw [integral] at given
  split at given
  · cases given
  · split at given
    · rename_i fits
      cases given
      exact fits
    · cases given

theorem fitsLong_of_toLong {token : Token} {i : Int} (given : toLong token = .ok i) :
    fitsLong i = true := by
  unfold toLong at given
  split at given
  · split at given
    · rename_i fits
      cases given
      exact fits
    · cases given
  · exact fitsLong_of_integral given
  · dsimp only at given
    split at given
    · rename_i read
      cases given
      exact (Option.filter_eq_some_iff.mp read).2
    · split at given
      · exact fitsLong_of_integral given
      · cases given
  · cases given

theorem typed_long {token : Token} {i : Int} (given : toLong token = .ok i) :
    Value.Typed permitted (.int i) .long := by
  have fits : -(twoTo 63 : Int) ≤ i ∧ i < twoTo 63 := of_decide_eq_true (fitsLong_of_toLong given)
  exact .long fits.1 fits.2

theorem typed_int {token : Token} {i : Int} (given : toInt token = .ok i) :
    Value.Typed permitted (.int i) .int := by
  rw [toInt] at given
  obtain ⟨i', -, ranged⟩ := bind_eq_ok_iff.mp given
  split at ranged
  · rename_i narrow
    cases ranged
    have fits : -(twoTo 31 : Int) ≤ i ∧ i < twoTo 31 := of_decide_eq_true narrow
    exact .int fits.1 fits.2
  · cases ranged

theorem typed_float {token : Token} {x : Double} (given : toFloat token = .ok x) :
    Value.Typed permitted (.float x) .float := by
  have ranged : ∀ {read : Except String Double} {reason : Double → String},
      (read >>= fun y => if y.fitsSingle then .ok y else .error (reason y)) = .ok x →
        x.fitsSingle = true := by
    intro read reason outcome
    obtain ⟨y, -, checked⟩ := bind_eq_ok_iff.mp outcome
    split at checked
    · rename_i fits
      cases checked
      exact fits
    · cases checked
  have fits : x.fitsSingle = true := by
    unfold toFloat at given
    dsimp only at given
    split at given
    · exact ranged given
    · split at given
      · exact ranged given
      · exact ranged given
    · exact ranged given
  exact .float (Binary.fitsSingle_spec fits).1 (Binary.fitsSingle_spec fits).2

theorem typed_enum {type : EnumType} {token : Token} {label : String}
    (given : toLabel type token = .ok label) :
    Value.Typed permitted (.enum label) (.enum type) := by
  unfold toLabel at given
  split at given
  · split at given
    · rename_i found
      cases given
      exact .enum (List.mem_of_find?_eq_some found)
    · cases given
  · dsimp only at given
    split at given
    · rename_i ordinal
      cases given
      split at ordinal
      · exact .enum (List.mem_of_getElem? ordinal)
      · cases ordinal
    · cases given
  · cases given

/-! ### Vectors -/

theorem isFinite_of_toComponent {x : Double} {component : Single}
    (given : toComponent x = .ok component) : component.isFinite = true := by
  rw [toComponent] at given
  split at given
  · rename_i fits
    cases given
    exact Binary.isFinite_narrow fits
  · cases given

theorem isFinite_of_text {shown : String} {text : List Char} {component : Single}
    (given : componentOfText shown text = .ok component) : component.isFinite = true := by
  rw [componentOfText] at given
  split at given
  · exact isFinite_of_toComponent given
  · cases given

theorem isFinite_of_token {token : Token} {component : Single}
    (given : componentOfToken token = .ok component) : component.isFinite = true := by
  unfold componentOfToken at given
  split at given
  · exact isFinite_of_toComponent given
  · exact isFinite_of_text given
  · cases given

theorem isFinite_of_mapM {α : Type} {read : α → Except String Single}
    (each : ∀ a component, read a = .ok component → component.isFinite = true) {items : List α}
    {components : List Single} (given : items.mapM read = .ok components) :
    ∀ component ∈ components, component.isFinite = true := by
  induction items generalizing components with
  | nil =>
      cases given
      simp
  | cons item rest ih =>
      rw [List.mapM_cons] at given
      obtain ⟨first, head, more⟩ := bind_eq_ok_iff.mp given
      obtain ⟨others, tail, done⟩ := bind_eq_ok_iff.mp more
      cases done
      exact List.forall_mem_cons.mpr ⟨each item first head, ih tail⟩

theorem isFinite_of_named {kind : VectorKind} {entries : Entries} {names : List String}
    {components : List Single} (given : namedComponents kind entries names = .ok components) :
    ∀ component ∈ components, component.isFinite = true := by
  induction names generalizing components with
  | nil =>
      cases given
      simp
  | cons name rest ih =>
      rw [namedComponents] at given
      split at given
      · obtain ⟨first, head, more⟩ := bind_eq_ok_iff.mp given
        obtain ⟨others, tail, done⟩ := bind_eq_ok_iff.mp more
        cases done
        exact List.forall_mem_cons.mpr ⟨isFinite_of_token head, ih tail⟩
      · split at given
        · cases given
          simp
        · cases given

theorem hexDigit?_lt {c : Char} {digit : Nat} (given : hexDigit? c = some digit) : digit < 16 := by
  rw [hexDigit?] at given
  split at given
  · rename_i range
    cases given
    have top : c.toNat ≤ '9'.toNat := range.2
    have : '9'.toNat = 57 := rfl
    have : '0'.toNat = 48 := rfl
    omega
  · split at given
    · rename_i range
      cases given
      have top : c.toNat ≤ 'f'.toNat := range.2
      have : 'f'.toNat = 102 := rfl
      have : 'a'.toNat = 97 := rfl
      omega
    · split at given
      · rename_i range
        cases given
        have top : c.toNat ≤ 'F'.toNat := range.2
        have : 'F'.toNat = 70 := rfl
        have : 'A'.toNat = 65 := rfl
        omega
      · cases given

theorem hexByte?_le {high low : Char} {byte : Nat} (given : hexByte? high low = some byte) :
    byte ≤ 255 := by
  rw [hexByte?] at given
  split at given
  · have := hexDigit?_lt given
    omega
  · obtain ⟨h, first, more⟩ := Option.bind_eq_some_iff.mp given
    obtain ⟨l, second, done⟩ := Option.bind_eq_some_iff.mp more
    cases done
    have := hexDigit?_lt first
    have := hexDigit?_lt second
    omega

theorem isFinite_of_hex {digits : List Char} {components : List Single}
    (given : hexComponents? digits = some components) :
    ∀ component ∈ components, component.isFinite = true := by
  induction digits using hexComponents?.induct generalizing components with
  | case1 high low rest ih =>
      rw [hexComponents?] at given
      obtain ⟨byte, first, more⟩ := Option.bind_eq_some_iff.mp given
      obtain ⟨others, tail, done⟩ := Option.bind_eq_some_iff.mp more
      cases done
      refine List.forall_mem_cons.mpr ⟨?_, ih tail⟩
      exact Binary.isFinite_ofRatio false (by omega) (hexByte?_le first)
  | case2 digits few =>
      unfold hexComponents? at given
      split at given
      · exact absurd rfl (few _ _ _)
      · cases given
        simp

theorem isFinite_of_vector {kind : VectorKind} {token : Token} {components : List Single}
    (given : vectorComponents kind token = .ok components) :
    ∀ component ∈ components, component.isFinite = true := by
  unfold vectorComponents at given
  split at given
  · exact isFinite_of_mapM (fun _ _ => isFinite_of_token) given
  · exact isFinite_of_named given
  · dsimp only at given
    split at given
    · unfold hexColor at given
      dsimp only at given
      split at given
      · split at given
        · rename_i read
          cases given
          exact isFinite_of_hex read
        · cases given
      · cases given
    · unfold delimitedComponents at given
      dsimp only at given
      split at given
      · cases given
      · exact isFinite_of_mapM (fun _ _ => isFinite_of_text) given
  · cases given

/-- A color without its last component gets one that is finite too. -/
theorem ofComponents?_spec {kind : VectorKind} {components : List Single} {v : Vec}
    (given : Vec.ofComponents? kind components = some v)
    (finite : ∀ component ∈ components, component.isFinite = true) :
    v.kind = kind ∧ ∀ component ∈ v.components, component.isFinite = true := by
  unfold Vec.ofComponents? at given
  split at given
  case h_5 =>
    cases given
    refine ⟨rfl, ?_⟩
    have full : (Binary.ofInt .single 1).isFinite = true := by decide +kernel
    simpa [Vec.components, full] using finite
  case h_7 => cases given
  all_goals
    cases given
    exact ⟨rfl, finite⟩

theorem typed_vector {kind : VectorKind} {token : Token} {v : Vec}
    (given : toVector kind token = .ok v) : Value.Typed permitted (.vector v) (.vector kind) := by
  rw [toVector] at given
  obtain ⟨components, read, made⟩ := bind_eq_ok_iff.mp given
  split at made
  · rename_i whole
    cases made
    obtain ⟨same, finite⟩ := ofComponents?_spec whole (isFinite_of_vector read)
    exact .vector same finite
  · cases made

/-! ### Assets -/

theorem typed_asset {library : Library} {field : String} {token : Token} {type : TypeName} :
    (toResource library field token type).Gives fun value =>
      value.Typed permitted (.resource type) := by
  rw [toResource]
  split
  · exact .throw _
  · dsimp only
    split
    · exact .pure (.noResource type)
    · rw [findAsset]
      split
      · rename_i handle loaded
        refine (Traced.Gives.any _).bind fun _ _ => .pure (.resource ?_)
        have found := List.find?_some loaded
        simp only [Bool.and_eq_true, decide_eq_true_eq] at found
        exact found.2
      · split
        · rename_i handle one
          refine .pure (.resource ?_)
          split at one
          · cases one
          · have named := (List.mem_filter.mp (one ▸ List.mem_singleton_self handle)).2
            simp only [Bool.and_eq_true, decide_eq_true_eq] at named
            exact named.1
        · exact (Traced.Gives.any _).bind fun _ _ => .pure (.noResource type)
        · exact (Traced.Gives.any _).bind fun _ _ => .pure (.noResource type)

end SceneEdit.Coercion
