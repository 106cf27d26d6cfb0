import SceneEdit.Proofs.Coercion.Repetition
import SceneEdit.Proofs.Path.ReadWrite

/-!
# Writing again

A token that has been written along a path can be written along it again, and nothing changes any
more. The path leads to the slot it has led to, which is declared as before and holds what the token
was converted to; there the token is converted to the same once more, and putting what is there
changes nothing.
-/

namespace SceneEdit.Access

/-- Writing the token along the path merges no object of it that has two keys that are the same
ignoring case. -/
def Unambiguous (access : Access) (object : Object) (path : String) (token : Token) : Prop :=
  ∀ location declared held, access.locate object path = some location →
    (Value.object object).declarationAt? none location = some ⟨declared, true⟩ →
    (Value.object object).at? location = some held →
    Coercion.Unambiguous access.env token declared (some held)

/-- What was written once can be written again, where it is settled. -/
theorem Written.again {access : Access} {object changed : Object} {path : String} {token : Token}
    {location : Location} {declared : ValueType} {old new : Value}
    (written : Written access object path token location declared old new)
    (settled : Coercion.Settled access.env token declared new)
    (put : (Value.object object).put location new = .object changed) :
    Written access changed path token location declared new new where
  found := by
    rw [← put]
    exact Value.at?_put_self written.found new
  declaration := by
    rw [← put, Value.declarationAt?_put_self]
    exact written.declaration
  converted := Traced.value?_eq_some_iff.mp (settled path)
  accepted := written.accepted

/-- Writing a token a second time changes nothing, and so does converting it a second time: against
what it was converted to, for whatever type and whatever the slot held at first, it is converted to
the same. This asks that no object that is merged on the way, be it in the token or in a document
that one of its texts holds, has two keys that are the same ignoring case. -/
theorem write_idempotent (access : Access) (token : Token) :
    (∀ object changed path, access.Unambiguous object path token →
      (access.write object path token).result = .ok changed →
      (access.write changed path token).result = .ok changed) ∧
    ∀ field other target current value, Coercion.Unambiguous access.env token target current →
      (Coercion.coerce access.env field token target current).result = .ok value →
      (Coercion.coerce access.env other token target (some value)).result = .ok value := by
  refine ⟨fun object changed path unambiguous done => ?_,
    fun field other target current value unambiguous converted => ?_⟩
  · obtain ⟨location, declared, old, new, located, written, put⟩ := write_eq_ok_iff.mp done
    have settled : Coercion.Settled access.env token declared new :=
      Coercion.settles_of_unambiguous
        (unambiguous location declared old located written.declaration written.found) path new
        (Traced.value?_eq_some_iff.mpr written.converted)
    have again := written.again settled put
    refine write_eq_ok_iff.mpr ⟨location, declared, new, new, ?_, again, ?_⟩
    · exact locate_put located (locate_ne_nil located) (fun _ => rfl) put
    · exact Value.put_eq_self again.found
  · have settled := Coercion.settles_of_unambiguous unambiguous field value
      (Traced.value?_eq_some_iff.mpr converted)
    exact Traced.value?_eq_some_iff.mp (settled other)

/-! ### A crane without a motor -/

/-- A motor as the host makes it, of a type of its own. -/
def engine (speed : Int) (gears : List Value) : Object :=
  ⟨⟨"Engine"⟩, [⟨"speed", .property, .int, true, .int speed⟩,
    ⟨"gears", .field, .list .int, true, .list gears⟩], none⟩

/-- Motors start as engines of one gear. -/
def workshop : Access :=
  { env := { catalog :=
    { entries := [⟨⟨⟨"Motor"⟩, "Game", .capability⟩, some (engine 3 [.int 1])⟩] } } }

def crane (motor : Value) : Object :=
  ⟨⟨"Crane"⟩, [⟨"motor", .property, .nullable (.struct ⟨"Motor"⟩), true, motor⟩], none⟩

/-- A motor of two gears. -/
def gearing : Entries := [("Gears", .arr [.int 2, .int 4]), ("speed", .int 7)]

theorem gearing_distinct (entries : Entries) (held : (Token.obj gearing).Holds entries) :
    entries.Distinct := by
  have number : ∀ i, ¬ (Token.int i).Holds entries := by
    rintro i (document | document | document) <;> cases document
  cases held with
  | here document =>
      cases document
      decide +kernel
  | item document => cases document
  | entry document inside held =>
      cases document
      obtain gears | inside := List.mem_cons.mp inside
      · cases gears
        cases held with
        | here document => cases document
        | entry document => cases document
        | item document inside held =>
            cases document
            obtain rfl | inside := List.mem_cons.mp inside
            · exact absurd held (number 2)
            · cases List.mem_singleton.mp inside
              exact absurd held (number 4)
      · cases List.mem_singleton.mp inside
        exact absurd held (number 7)

theorem coerce_gearing {field : String} {current : Option Value}
    (start : (Coercion.baseObject workshop.env field (.struct ⟨"Motor"⟩) ⟨"Motor"⟩ current).value? =
      some (engine 3 [.int 1])) :
    (Coercion.coerce workshop.env field (.obj gearing) (.struct ⟨"Motor"⟩) current).result =
      .ok (.object (engine 7 [.int 2, .int 4])) := by
  have number : ∀ i, Coercion.toInt (.int i) = .ok i → ∀ field current,
      (Coercion.coerce workshop.env field (.int i) .int current).value? = some (.int i) := by
    intro i whole field current
    rw [Coercion.coerce, whole]
    rfl
  have gears : Coercion.mergeEntry workshop.env (engine 3 [.int 1])
      ("Gears", .arr [.int 2, .int 4]) = some (engine 3 [.int 2, .int 4]) := by
    refine (Coercion.mergeEntry_eq_some_iff "").mpr
      ⟨1, _, .list [.int 2, .int 4], rfl, rfl, rfl, Traced.value?_eq_some_iff.mp ?_, rfl⟩
    have document : (Token.arr [.int 2, .int 4]).embedded = .arr [.int 2, .int 4] := rfl
    rw [Coercion.coerce_collection workshop.env "" (Or.inl rfl) document]
    simp only [Coercion.coerceItems, Traced.value?_bind, number 2 rfl, number 4 rfl]
    rfl
  have speed : Coercion.mergeEntry workshop.env (engine 3 [.int 2, .int 4]) ("speed", .int 7) =
      some (engine 7 [.int 2, .int 4]) :=
    (Coercion.mergeEntry_eq_some_iff "").mpr ⟨0, _, .int 7, rfl, rfl, rfl,
      Traced.value?_eq_some_iff.mp (number 7 rfl _ _), rfl⟩
  have document : (Token.obj gearing).embedded = .obj gearing := rfl
  refine Traced.value?_eq_some_iff.mp
    ((Coercion.coerce_nested workshop.env field (Or.inl rfl) document current).trans ?_)
  rw [start, Option.bind_some, gearing, List.foldlM_cons, gears]
  exact congrArg (fun made => Option.map Value.object (Option.bind made _)) speed

/-- A motor of the other type that the host makes is written twice where there was none, and
converted twice where there was nothing at all. -/
theorem write_idempotent_of_crane :
    (workshop.write (crane .null) "motor" (.obj gearing)).result =
        .ok (crane (.object (engine 7 [.int 2, .int 4]))) ∧
      (workshop.write (crane (.object (engine 7 [.int 2, .int 4]))) "motor" (.obj gearing)).result =
        .ok (crane (.object (engine 7 [.int 2, .int 4]))) ∧
      (Coercion.coerce workshop.env "motor" (.obj gearing) (.struct ⟨"Motor"⟩) none).result =
        .ok (.object (engine 7 [.int 2, .int 4])) ∧
      (Coercion.coerce workshop.env "motor" (.obj gearing) (.struct ⟨"Motor"⟩)
        (some (.object (engine 7 [.int 2, .int 4])))).result =
        .ok (.object (engine 7 [.int 2, .int 4])) := by
  have first : (workshop.write (crane .null) "motor" (.obj gearing)).result =
      .ok (crane (.object (engine 7 [.int 2, .int 4]))) := by
    refine write_eq_ok_iff.mpr ⟨[.member 0], .nullable (.struct ⟨"Motor"⟩), .null,
      .object (engine 7 [.int 2, .int 4]), by decide +kernel, ⟨rfl, rfl, ?_, ?_⟩, rfl⟩
    · rw [Coercion.coerce, if_neg (by exact Bool.false_ne_true)]
      exact coerce_gearing rfl
    · rintro ⟨⟩
  have converted := @coerce_gearing "motor" none rfl
  obtain ⟨writes, converts⟩ := write_idempotent workshop (.obj gearing)
  refine ⟨first, writes _ _ _ ?_ first, converted, converts _ _ _ _ _ ?_ converted⟩
  · exact fun _ declared held _ _ _ => .of_holds gearing_distinct workshop.env declared (some held)
  · exact .of_holds gearing_distinct workshop.env _ none

end SceneEdit.Access
