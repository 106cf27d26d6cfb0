import SceneEdit.Coercion.Resource
import SceneEdit.Coercion.Scalar
import SceneEdit.Coercion.Vector
import SceneEdit.Token.Reader
import SceneEdit.Value.Member

/-!
# Converting tokens to values

A token is converted against the declared type of the slot it is meant for. Collections and nested
objects convert part by part; an object token changes only the members it names, starting from the
object the slot holds or from the default state of the type. A document may also come as a text.

The conversion ends because each step either looks at a lighter token or, at the same token, at a
type less deeply wrapped. A document taken out of a text is lighter than the text
(`weight_embedded_le`), so documents inside documents do not matter, and neither do types that
contain themselves.
-/

namespace SceneEdit

/-- The document that a text holds, if the text is an array or an object; any other token is
itself. -/
def Token.embedded (token : Token) : Token :=
  match token with
  | .str s =>
    let text := Text.trimmed s.toList
    if text.head? = some '[' ∨ text.head? = some '\x7b' then
      (Token.parse? documentDepth text).getD token
    else token
  | _ => token

namespace Text

theorem length_strip_le (p : Char → Bool) (cs : List Char) : (strip p cs).length ≤ cs.length := by
  unfold strip
  have front := Token.length_dropWhile_le p cs
  have back := Token.length_dropWhile_le p (cs.dropWhile p).reverse
  simp only [List.length_reverse] at back ⊢
  omega

end Text

/-- What a text holds is no heavier than the text. -/
theorem Token.weight_embedded_le (token : Token) : token.embedded.weight ≤ token.weight := by
  unfold embedded
  split
  · rename_i s
    dsimp only
    split
    · cases h : parse? documentDepth (Text.trimmed s.toList) with
      | none => simp
      | some document =>
        have light := weight_le_of_parse? h
        have trimmed := Text.length_strip_le Text.isBlank s.toList
        simp only [Option.getD_some, weight, ← String.length_toList]
        unfold Text.trimmed at light
        omega
    · exact Nat.le_refl _
  · exact Nat.le_refl _

theorem Token.embedded_of_isNull {token : Token} (null : token.isNull = true) :
    token.embedded = .null := by
  cases token <;> cases null
  rfl

/-- A token that holds a document other than null is not null. -/
theorem Token.filled_of_embedded {token document : Token} (holds : token.embedded = document)
    (filled : ¬ document.isNull = true) : ¬ token.isNull = true := by
  intro null
  rw [← holds, embedded_of_isNull null] at filled
  exact filled rfl

namespace Coercion

/-- A conversion to a field of a type that fails with a reason. -/
def fieldError (field : String) (target : ValueType) (reason : String) : Report :=
  { error := .coercion field target.display reason }

/-- A conversion that fails with a reason, as an attempt for a field. -/
def forField {α : Type} (field : String) (target : ValueType) (x : Except String α) : Attempt α :=
  .ofExcept (x.mapError (fieldError field target))

/-- What a null token stands for: absence where the type accepts it, else the value of the type
that is closest to nothing. -/
def absent (env : Environment) (field : String) (target : ValueType) : Attempt Value :=
  if target.acceptsAbsence then pure .null
  else match target.zero? with
    | some value => pure value
    | none =>
      match target with
      | .struct name =>
        match env.catalog.instantiate? name with
        | some table => pure (.object table)
        | none =>
          throw (fieldError field target "null is not allowed and the type has no default")
      | _ => throw (fieldError field target "null is not allowed")

/-- The object an object token is written into: the one the slot holds if it has the type, else
the default state of the type. -/
def baseObject (env : Environment) (field : String) (target : ValueType) (name : TypeName)
    (current : Option Value) : Attempt Object :=
  match (current.bind Value.object?).filter fun table => table.typeName = name with
  | some table => pure table
  | none =>
    match env.catalog.instantiate? name with
    | some table => pure table
    | none => throw (fieldError field target "the host has no template for this type")

/-- The items a list holds; any other value holds none. -/
def currentItems : Option Value → List Value
  | some (.list items) => items
  | _ => []

/-- A failure to find a member, as the failure of the object's conversion. -/
def memberError (field : String) (target : ValueType) (key : String) (failure : LookupFailure) :
    Report :=
  fieldError field target (failure.reason key)

mutual

/-- Converts a token for a field declared with a type; `current` is what the field holds. -/
def coerce (env : Environment) (field : String) (token : Token) (target : ValueType)
    (current : Option Value) : Attempt Value :=
  if token.isNull then absent env field target
  else match target with
    | .nullable inner => coerce env field token inner current
    | .bool => forField field target ((toBool token).map .bool)
    | .int => forField field target ((toInt token).map .int)
    | .long => forField field target ((toLong token).map .int)
    | .float => forField field target ((toFloat token).map .float)
    | .string => forField field target ((toText token).map .string)
    | .enum type => forField field target ((toLabel type token).map .enum)
    | .vector kind => forField field target ((toVector kind token.embedded).map .vector)
    | .resource name => toResource env.library field token name
    | .list element =>
      match _h : token.embedded with
      | .arr items => .list <$> coerceItems env field 0 items element (currentItems current)
      | other => throw (fieldError field target s!"expected an array, got {other.text}")
    | .array element length =>
      match _h : token.embedded with
      | .arr items =>
        if items.length = length then
          .list <$> coerceItems env field 0 items element (currentItems current)
        else
          throw (fieldError field target s!"expected {length} elements, got {items.length}")
      | other => throw (fieldError field target s!"expected an array, got {other.text}")
    | .struct name | .reference name =>
      match _h : token.embedded with
      | .obj entries => do
        let base ← baseObject env field target name current
        .object <$> mergeEntries env field target base entries
      | other => throw (fieldError field target s!"expected an object, got {other.text}")
    | .foreign _ => throw (fieldError field target "no converter exists for this type")
termination_by (token.weight, target.depth)
decreasing_by
  · exact Prod.Lex.right _ (Nat.lt_succ_self _)
  all_goals
    apply Prod.Lex.left
    have light := token.weight_embedded_le
    rw [_h, Token.weight] at light
    omega

/-- Converts the items of an array from place `index` on, each against the item already there. -/
def coerceItems (env : Environment) (field : String) (index : Nat) (items : List Token)
    (element : ValueType) (current : List Value) : Attempt (List Value) :=
  match items with
  | [] => pure []
  | item :: rest => do
    let first ← coerce env s!"{field}[{index}]" item element current.head?
    let more ← coerceItems env field (index + 1) rest element current.tail
    return first :: more
termination_by (Token.itemsWeight items, 0)
decreasing_by
  all_goals
    apply Prod.Lex.left
    simp only [Token.itemsWeight]
    omega

/-- Writes the entries of an object token into the members they name, one after the other. -/
def mergeEntries (env : Environment) (field : String) (target : ValueType) (object : Object)
    (entries : Entries) : Attempt Object :=
  match entries with
  | [] => pure object
  | (key, token) :: rest => do
    let index ← (object.find key).mapError (memberError field target key)
    match object.members[index]? with
    | none => mergeEntries env field target object rest
    | some member =>
      if member.writable then
        let value ← coerce env s!"{field}.{member.name}" token member.declared (some member.value)
        mergeEntries env field target (object.setMember index value) rest
      else throw (fieldError field target s!"member '{member.name}' is read-only")
termination_by (Token.entriesWeight entries, 0)
decreasing_by
  all_goals
    apply Prod.Lex.left
    simp only [Token.entriesWeight]
    omega

end

/-! ### Equations by target -/

section

variable {env : Environment} {field : String} {token : Token} {target : ValueType}
variable {current : Option Value}

theorem coerce_null (null : token.isNull = true) :
    coerce env field token target current = absent env field target := by
  unfold coerce
  rw [if_pos null]

variable (filled : ¬ token.isNull = true)
include filled

theorem coerce_nullable {inner : ValueType} :
    coerce env field token (.nullable inner) current = coerce env field token inner current := by
  rw [coerce, if_neg filled]

theorem coerce_list_eq {element : ValueType} :
    coerce env field token (.list element) current = match token.embedded with
      | .arr items => .list <$> coerceItems env field 0 items element (currentItems current)
      | other =>
        throw (fieldError field (.list element) s!"expected an array, got {other.text}") := by
  rw [coerce, if_neg filled]
  split <;> simp [*]

theorem coerce_array_eq {element : ValueType} {length : Nat} :
    coerce env field token (.array element length) current = match token.embedded with
      | .arr items =>
        if items.length = length then
          .list <$> coerceItems env field 0 items element (currentItems current)
        else throw (fieldError field (.array element length)
          s!"expected {length} elements, got {items.length}")
      | other => throw (fieldError field (.array element length)
          s!"expected an array, got {other.text}") := by
  rw [coerce, if_neg filled]
  split <;> simp [*]

theorem coerce_nested_eq {name : TypeName}
    (nested : target = .struct name ∨ target = .reference name) :
    coerce env field token target current = match token.embedded with
      | .obj entries => baseObject env field target name current >>= fun base =>
        .object <$> mergeEntries env field target base entries
      | other => throw (fieldError field target s!"expected an object, got {other.text}") := by
  obtain rfl | rfl := nested <;>
  · rw [coerce, if_neg filled]
    split <;> simp [*]

/-- A collection takes nothing but an array. -/
theorem coerce_of_ne_arr {element : ValueType}
    (collection : target = .list element ∨ ∃ length, target = .array element length)
    (wrong : ∀ items, token.embedded ≠ .arr items) :
    coerce env field token target current =
      throw (fieldError field target s!"expected an array, got {token.embedded.text}") := by
  obtain rfl | ⟨length, rfl⟩ := collection
  · simp [coerce_list_eq filled]
  · simp [coerce_array_eq filled]

/-- A nested object takes nothing but an object. -/
theorem coerce_of_ne_obj {name : TypeName}
    (nested : target = .struct name ∨ target = .reference name)
    (wrong : ∀ entries, token.embedded ≠ .obj entries) :
    coerce env field token target current =
      throw (fieldError field target s!"expected an object, got {token.embedded.text}") := by
  simp [coerce_nested_eq filled nested]

omit filled

/-- An array is converted item by item. -/
theorem coerce_eq_items (env : Environment) (field : String) {element : ValueType}
    {items : List Token}
    (collection : target = .list element ∨ target = .array element items.length)
    (document : token.embedded = .arr items) (current : Option Value) :
    coerce env field token target current =
      .list <$> coerceItems env field 0 items element (currentItems current) := by
  have filled := Token.filled_of_embedded document Bool.false_ne_true
  obtain rfl | rfl := collection
  · rw [coerce_list_eq filled, document]
  · rw [coerce_array_eq filled, document]
    exact if_pos rfl

/-- An object token is merged into the object that the slot holds or the default state of the
type. -/
theorem coerce_eq_merge (env : Environment) (field : String) {name : TypeName} {entries : Entries}
    (nested : target = .struct name ∨ target = .reference name)
    (document : token.embedded = .obj entries) (current : Option Value) :
    coerce env field token target current =
      (baseObject env field target name current >>= fun base =>
        .object <$> mergeEntries env field target base entries) := by
  have filled := Token.filled_of_embedded document Bool.false_ne_true
  rw [coerce_nested_eq filled nested, document]

end
end Coercion
end SceneEdit
