import SceneEdit.Proofs.Coercion.Declared
import SceneEdit.Proofs.Token

/-!
# How deep conversions nest

A conversion that is carried out by calling another one for each part, with a limit on how deep the
calls may nest, gives up when the limit is used up (`coerceWithin`). A call for a part of a document
has a lighter token; a call for the type inside a nullable one has the same token and a type less
deeply wrapped. What a nested member is declared with may be wrapped as deeply as any type that the
catalog or the slot declares, but no deeper. So `room` bounds how deep calls nest, and it is made of
the weight of the token and of the deepest type alone: it does not matter that types contain
themselves, nor that texts hold documents whose texts hold documents.
-/

namespace SceneEdit

namespace Coercion

/-! ### Conversions with a limit -/

/-- A conversion that may give up, which is no failure with a report. -/
abbrev Converter :=
  String → Token → ValueType → Option Value → Traced (Option Report) Value

/-- The items of an array, each converted by a converter. -/
def itemsBy (convert : Converter) (field : String) (index : Nat) (items : List Token)
    (element : ValueType) (current : List Value) : Traced (Option Report) (List Value) :=
  match items with
  | [] => pure []
  | item :: rest => do
    let first ← convert s!"{field}[{index}]" item element current.head?
    let more ← itemsBy convert field (index + 1) rest element current.tail
    return first :: more

/-- The entries of an object token, each converted by a converter. -/
def entriesBy (convert : Converter) (field : String) (target : ValueType) (object : Object)
    (entries : Entries) : Traced (Option Report) Object :=
  match entries with
  | [] => pure object
  | (key, token) :: rest => do
    let index ← (object.find key).mapError fun failure =>
      some (memberError field target key failure)
    match object.members[index]? with
    | none => entriesBy convert field target object rest
    | some member =>
      if member.writable then
        let value ← convert s!"{field}.{member.name}" token member.declared (some member.value)
        entriesBy convert field target (object.setMember index value) rest
      else throw (some (fieldError field target s!"member '{member.name}' is read-only"))

/-- One call of the conversion, which leaves all calls that it makes to a converter. -/
def coerceBy (convert : Converter) (env : Environment) (field : String) (token : Token)
    (target : ValueType) (current : Option Value) : Traced (Option Report) Value :=
  if token.isNull then (absent env field target).mapError some
  else match target with
    | .nullable inner => convert field token inner current
    | .bool => (forField field target ((toBool token).map .bool)).mapError some
    | .int => (forField field target ((toInt token).map .int)).mapError some
    | .long => (forField field target ((toLong token).map .int)).mapError some
    | .float => (forField field target ((toFloat token).map .float)).mapError some
    | .string => (forField field target ((toText token).map .string)).mapError some
    | .enum type => (forField field target ((toLabel type token).map .enum)).mapError some
    | .vector kind =>
      (forField field target ((toVector kind token.embedded).map .vector)).mapError some
    | .resource name => (toResource env.library field token name).mapError some
    | .list element =>
      match token.embedded with
      | .arr items => .list <$> itemsBy convert field 0 items element (currentItems current)
      | other => throw (some (fieldError field target s!"expected an array, got {other.text}"))
    | .array element length =>
      match token.embedded with
      | .arr items =>
        if items.length = length then
          .list <$> itemsBy convert field 0 items element (currentItems current)
        else throw (some
          (fieldError field target s!"expected {length} elements, got {items.length}"))
      | other => throw (some (fieldError field target s!"expected an array, got {other.text}"))
    | .struct name | .reference name =>
      match token.embedded with
      | .obj entries => do
        let base ← (baseObject env field target name current).mapError some
        .object <$> entriesBy convert field target base entries
      | other => throw (some (fieldError field target s!"expected an object, got {other.text}"))
    | .foreign _ => throw (some (fieldError field target "no converter exists for this type"))

/-- The conversion whose calls nest at most so deep; it gives up when a call nests deeper. -/
def coerceWithin (env : Environment) : Nat → Converter
  | 0 => fun _ _ _ _ => throw none
  | limit + 1 => coerceBy (coerceWithin env limit) env

/-! ### Calls -/

/-- What a conversion is called for. -/
structure Call where
  token : Token
  target : ValueType
  current : Option Value

/-- One call makes another one: for the type inside a nullable one, for an item of an array, or for
the value of an entry that names a member, once the entries before it are written. -/
inductive Calls (env : Environment) : Call → Call → Prop
  | unwrap {token : Token} {inner : ValueType} {current : Option Value}
      (filled : ¬ token.isNull = true) :
      Calls env ⟨token, .nullable inner, current⟩ ⟨token, inner, current⟩
  | item {token item : Token} {target element : ValueType} {current : Option Value}
      {items : List Token} {place : Nat}
      (collection : target = .list element ∨ target = .array element items.length)
      (document : token.embedded = .arr items) (given : items[place]? = some item) :
      Calls env ⟨token, target, current⟩ ⟨item, element, (currentItems current)[place]?⟩
  | entry {token inner : Token} {target : ValueType} {name : TypeName} {current : Option Value}
      {field key : String} {before after : Entries} {base table : Object} {index : Nat}
      {member : Member} (nested : target = .struct name ∨ target = .reference name)
      (document : token.embedded = .obj (before ++ (key, inner) :: after))
      (start : (baseObject env field target name current).result = .ok base)
      (written : before.foldlM (mergeEntry env) base = some table)
      (looked : (table.find key).result = .ok index)
      (there : table.members[index]? = some member) (writable : member.writable = true) :
      Calls env ⟨token, target, current⟩ ⟨inner, member.declared, some member.value⟩

variable {env : Environment} {field : String} {token : Token} {target : ValueType}
variable {current : Option Value} {convert : Converter}

/-- A converter carries out a call as the conversion does. -/
def Agrees (env : Environment) (convert : Converter) (call : Call) : Prop :=
  ∀ field, convert field call.token call.target call.current =
    (coerce env field call.token call.target call.current).mapError some

theorem itemsBy_eq {items : List Token} {element : ValueType} {existing : List Value} {index : Nat}
    (agrees : ∀ (place : Nat) item, items[place]? = some item →
      Agrees env convert ⟨item, element, existing[place]?⟩) :
    itemsBy convert field index items element existing =
      (coerceItems env field index items element existing).mapError some := by
  induction items generalizing index existing with
  | nil =>
      rw [itemsBy, coerceItems]
      rfl
  | cons item rest ih =>
      have first := agrees 0 item rfl s!"{field}[{index}]"
      have more := @ih existing.tail (index + 1) fun place item given => by
        rw [List.getElem?_tail]
        exact agrees (place + 1) item given
      rw [← List.head?_eq_getElem?] at first
      rw [itemsBy, coerceItems, Traced.mapError_bind, first]
      refine Traced.bind_congr fun value _ => ?_
      rw [Traced.mapError_bind, more]
      rfl

theorem entriesBy_eq {entries : Entries} {table : Object}
    (agrees : ∀ (before : Entries) key inner after (written : Object) (index : Nat)
        (member : Member), entries = before ++ (key, inner) :: after →
      before.foldlM (mergeEntry env) table = some written →
      (written.find key).result = .ok index → written.members[index]? = some member →
      member.writable = true → Agrees env convert ⟨inner, member.declared, some member.value⟩) :
    entriesBy convert field target table entries =
      (mergeEntries env field target table entries).mapError some := by
  induction entries generalizing table with
  | nil =>
      rw [entriesBy, mergeEntries]
      rfl
  | cons entry rest ih =>
      obtain ⟨key, inner⟩ := entry
      rw [entriesBy, mergeEntries, Traced.mapError_bind, Traced.mapError_mapError]
      refine Traced.bind_congr fun index found => ?_
      have looked : (table.find key).result = .ok index := mapError_eq_ok_iff.mp found
      obtain ⟨member, there, -⟩ := Table.exists_member_of_find looked
      rw [there]
      dsimp only
      split
      · rename_i writable
        have first := agrees [] key inner rest table index member rfl rfl looked there writable
          s!"{field}.{member.name}"
        rw [Traced.mapError_bind, first]
        refine Traced.bind_congr fun value given => ih ?_
        have converted := mapError_eq_ok_iff.mp given
        intro before other inner' after written index' member' parts done
        refine agrees ((key, inner) :: before) other inner' after written index' member' ?_ ?_
        · rw [parts]
          rfl
        · rw [List.foldlM_cons, (mergeEntry_eq_some_iff s!"{field}.{member.name}").mpr
            ⟨index, member, value, looked, there, writable, converted, rfl⟩]
          exact done
      · rfl

section

variable (agrees : ∀ call, Calls env ⟨token, target, current⟩ call → Agrees env convert call)
include agrees

theorem list_itemsBy_eq {element : ValueType} {items : List Token}
    (collection : target = .list element ∨ target = .array element items.length)
    (document : token.embedded = .arr items) :
    Value.list <$> itemsBy convert field 0 items element (currentItems current) =
      (Value.list <$> coerceItems env field 0 items element (currentItems current)).mapError
        some := by
  rw [Traced.mapError_map]
  exact congrArg _ (itemsBy_eq fun place item there => agrees _ (.item collection document there))

theorem coerceBy_list (filled : ¬ token.isNull = true) {element : ValueType}
    (collection : target = .list element) :
    coerceBy convert env field token target current =
      (coerce env field token target current).mapError some := by
  subst collection
  rw [coerceBy, if_neg filled, coerce_list_eq filled]
  cases document : token.embedded with
  | arr items => exact list_itemsBy_eq agrees (Or.inl rfl) document
  | _ => rfl

theorem coerceBy_array (filled : ¬ token.isNull = true) {element : ValueType} {length : Nat}
    (collection : target = .array element length) :
    coerceBy convert env field token target current =
      (coerce env field token target current).mapError some := by
  subst collection
  rw [coerceBy, if_neg filled, coerce_array_eq filled]
  cases document : token.embedded with
  | arr items =>
      dsimp only
      split
      · rename_i counted
        exact list_itemsBy_eq agrees (Or.inr (by rw [counted])) document
      · rfl
  | _ => rfl

theorem coerceBy_nested (filled : ¬ token.isNull = true) {name : TypeName}
    (nested : target = .struct name ∨ target = .reference name) :
    coerceBy convert env field token target current =
      (coerce env field token target current).mapError some := by
  have written {entries : Entries} (document : token.embedded = .obj entries) :
      ((baseObject env field target name current).mapError some >>= fun base =>
        Value.object <$> entriesBy convert field target base entries) =
      (baseObject env field target name current >>= fun base =>
        Value.object <$> mergeEntries env field target base entries).mapError some := by
    rw [Traced.mapError_bind]
    refine Traced.bind_congr fun base given => ?_
    have start := mapError_eq_ok_iff.mp given
    rw [Traced.mapError_map]
    refine congrArg _ (entriesBy_eq fun before key inner after table index member parts => ?_)
    exact fun done looked there writable =>
      agrees _ (.entry nested (parts ▸ document) start done looked there writable)
  rw [coerce_nested_eq filled nested]
  obtain rfl | rfl := nested <;>
  · rw [coerceBy, if_neg filled]
    cases document : token.embedded with
    | obj entries => exact written document
    | _ => rfl

/-- A converter that carries out the calls that a call makes is all that the call needs. -/
theorem coerceBy_eq :
    coerceBy convert env field token target current =
      (coerce env field token target current).mapError some := by
  by_cases null : token.isNull = true
  · unfold coerceBy
    rw [if_pos null, coerce_null null]
  cases target with
  | nullable inner =>
      rw [coerceBy, if_neg null, coerce_nullable null]
      exact agrees _ (.unwrap null) field
  | list element => exact coerceBy_list agrees null rfl
  | array element length => exact coerceBy_array agrees null rfl
  | struct name => exact coerceBy_nested agrees null (Or.inl rfl)
  | reference name => exact coerceBy_nested agrees null (Or.inr rfl)
  | foreign name =>
      rw [coerceBy, coerce, if_neg null, if_neg null]
      rfl
  | _ => rw [coerceBy, coerce, if_neg null, if_neg null]

end

/-! ### How deep calls nest -/

/-- A call that is made has a lighter token, or the same token and a type less deeply wrapped. -/
theorem Calls.descends {call callee : Call} (calls : Calls env call callee) :
    callee.token.weight < call.token.weight ∨
      callee.token = call.token ∧ callee.target.depth < call.target.depth := by
  cases calls with
  | unwrap => exact Or.inr ⟨rfl, Nat.lt_succ_self _⟩
  | item collection document given =>
      exact Or.inl (Token.weight_lt_of_item document (List.mem_of_getElem? given))
  | entry nested document =>
      exact Or.inl (Token.weight_lt_of_entry document
        (List.mem_append_right _ List.mem_cons_self))

theorem wellFounded_calls (env : Environment) :
    WellFounded fun callee call => Calls env call callee := by
  let measure (call : Call) : Nat × Nat := (call.token.weight, call.target.depth)
  have lex : WellFounded (InvImage (Prod.Lex (· < ·) (· < ·)) measure) :=
    InvImage.wf measure (WellFounded.prod_lex Nat.lt_wfRel.wf Nat.lt_wfRel.wf)
  refine Subrelation.wf (fun {callee call} calls => ?_) lex
  obtain lighter | ⟨same, shallower⟩ := calls.descends
  · exact Prod.Lex.left _ _ lighter
  · rw [InvImage]
    simp only [measure, same]
    exact Prod.Lex.right _ shallower

section

variable {types : List ValueType} {deepest : Nat} {call callee : Call}
variable (catalog : env.catalog.declarations ⊆ types)
variable (bounded : ∀ type ∈ types, type.depth ≤ deepest)

include catalog bounded in
/-- The types that calls meet are wrapped no deeper than the types they started from and those
that the catalog and the slot declare. -/
theorem Calls.within (calls : Calls env call callee) (shallow : call.target.depth ≤ deepest)
    (kept : Value.held call.current ⊆ types) :
    callee.target.depth ≤ deepest ∧ Value.held callee.current ⊆ types := by
  cases calls with
  | unwrap => exact ⟨(Nat.le_succ _).trans shallow, kept⟩
  | item collection document given =>
      refine ⟨?_, declarations_currentItems kept⟩
      obtain rfl | rfl := collection
      · exact (Nat.le_succ _).trans shallow
      · exact (Nat.le_succ _).trans shallow
  | entry nested document start written looked there =>
      have base := declarations_baseObject catalog kept (Traced.value?_eq_some_iff.mpr start)
      have table := declarations_foldlM_mergeEntry
        (fun _ kept field => declarations_coerce catalog kept field)
        (fun entry inside => Token.weight_lt_of_entry document (List.mem_append_left _ inside))
        base written
      obtain ⟨declared, inner⟩ := declarations_member table there
      exact ⟨bounded _ declared, inner⟩

/-- How deep the calls of a call may nest: for each step into the token, the type that is met there
may have to be unwrapped as often as the deepest one. -/
def room (deepest : Nat) (call : Call) : Nat :=
  (call.token.weight - 1) * (deepest + 1) + call.target.depth + 1

theorem Calls.room_lt (calls : Calls env call callee) (shallow : callee.target.depth ≤ deepest) :
    room deepest callee < room deepest call := by
  unfold room
  obtain lighter | ⟨same, shallower⟩ := calls.descends
  · have more : callee.token.weight * (deepest + 1) ≤ (call.token.weight - 1) * (deepest + 1) :=
      Nat.mul_le_mul_right _ (by omega)
    have one : callee.token.weight * (deepest + 1) =
        (callee.token.weight - 1) * (deepest + 1) + (deepest + 1) := by
      rw [← Nat.succ_mul, Nat.succ_eq_add_one, Nat.sub_add_cancel callee.token.weight_pos]
    omega
  · rw [same]
    omega

theorem room_le (shallow : call.target.depth ≤ deepest) :
    room deepest call ≤ call.token.text.length * (deepest + 1) := by
  have written : call.token.weight * (deepest + 1) ≤ call.token.text.length * (deepest + 1) :=
    Nat.mul_le_mul_right _ call.token.weight_le_length_text
  have one : call.token.weight * (deepest + 1) =
      (call.token.weight - 1) * (deepest + 1) + (deepest + 1) := by
    rw [← Nat.succ_mul, Nat.succ_eq_add_one, Nat.sub_add_cancel call.token.weight_pos]
  unfold room
  omega

include catalog bounded in
/-- Where there is room for the calls of a call, they are all carried out. -/
theorem agrees_coerceWithin {limit : Nat} (enough : room deepest call ≤ limit)
    (shallow : call.target.depth ≤ deepest) (kept : Value.held call.current ⊆ types) :
    Agrees env (coerceWithin env limit) call := by
  induction limit generalizing call with
  | zero => exact absurd enough (Nat.not_succ_le_zero _)
  | succ limit ih =>
      obtain ⟨token, target, current⟩ := call
      intro field
      refine coerceBy_eq fun callee calls => ?_
      obtain ⟨shallow', kept'⟩ := calls.within catalog bounded shallow kept
      have less : room deepest callee < room deepest ⟨token, target, current⟩ :=
        calls.room_lt shallow'
      exact ih (by omega) shallow' kept'

end

/-- The depth of the deepest type that a conversion can meet: the one it is for, and those that the
default states of the catalog and the value of the slot declare. -/
def deepest (env : Environment) (target : ValueType) (current : Option Value) : Nat :=
  let types := target :: (env.catalog.declarations ++ Value.held current)
  (types.map ValueType.depth).max?.getD 0

theorem depth_le_deepest {type : ValueType}
    (met : type ∈ target :: (env.catalog.declarations ++ Value.held current)) :
    type.depth ≤ deepest env target current :=
  @List.le_max?_getD_of_mem _ _ 0 (List.mem_map_of_mem met)

/-- Conversions end, whatever the types of the catalog are made of. No chain of calls goes on for
ever, and calls nest no deeper than the length of the token's text times the depth of the deepest
type allows: a conversion that gives up beyond that limit never gives up, and does what the
conversion without a limit does. -/
theorem coerce_ends (env : Environment) :
    (WellFounded fun callee call => Calls env call callee) ∧
    ∀ limit field token target current,
      token.text.length * (deepest env target current + 1) ≤ limit →
      coerceWithin env limit field token target current =
        (coerce env field token target current).mapError some := by
  refine ⟨wellFounded_calls env, fun limit field token target current enough => ?_⟩
  have shallow : target.depth ≤ deepest env target current := depth_le_deepest List.mem_cons_self
  refine @agrees_coerceWithin env (env.catalog.declarations ++ Value.held current) _
    ⟨token, target, current⟩ (List.subset_append_left _ _) (fun type met => ?_) limit
    ((room_le shallow).trans enough) shallow (List.subset_append_right _ _) field
  exact depth_le_deepest (List.mem_cons_of_mem _ met)

/-- A link of a chain, which may be followed by other links. -/
def linkCatalog : Catalog :=
  let link : TypeName := ⟨"Link"⟩
  let next : Member := ⟨"next", .field, .list (.nullable (.reference link)), true, .list []⟩
  { entries := [⟨⟨link, "Game", .value⟩, some ⟨link, [next], none⟩⟩] }

/-- A chain of links in texts inside texts. -/
theorem coerce_ends_of_links :
    let env : Environment := { catalog := linkCatalog }
    let token : Token := .obj [("next", .str "[\x7b\"next\": \"[null]\"\x7d]")]
    token.text.length * (deepest env (.reference ⟨"Link"⟩) none + 1) ≤ 200 ∧
      (coerce env "head" token (.reference ⟨"Link"⟩) none).result.isOk = true := by
  intro env token
  have enough : token.text.length * (deepest env (.reference ⟨"Link"⟩) none + 1) ≤ 200 := by
    decide +kernel
  have given :
      (coerceWithin env 200 "head" token (.reference ⟨"Link"⟩) none).result.isOk = true := by
    decide +kernel
  have same := (coerce_ends env).2 200 "head" token (.reference ⟨"Link"⟩) none enough
  rw [same] at given
  refine ⟨enough, ?_⟩
  rw [Traced.result_mapError] at given
  cases converted : (coerce env "head" token (.reference ⟨"Link"⟩) none).result with
  | error report =>
      rw [converted] at given
      cases given
  | ok value => rfl

end Coercion
end SceneEdit
