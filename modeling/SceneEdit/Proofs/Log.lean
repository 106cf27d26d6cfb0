import SceneEdit.Log

/-!
# What computations give

A sequence that succeeds has succeeded step by step, and a mapped result was one before. Where a
computation also changes a state, what comes next starts from the state that it leaves.

For traced computations, `Gives x post` says that whatever `x` gives satisfies `post`; a failure
gives nothing. Events play no part in it. The rules follow the ways such computations are put
together. `value?` is what is given, and leaves out how a computation fails: two that differ in
their messages only have it in common.
-/

namespace SceneEdit

theorem bind_eq_ok_iff {ε α β : Type} {x : Except ε α} {f : α → Except ε β} {b : β} :
    x >>= f = .ok b ↔ ∃ a, x = .ok a ∧ f a = .ok b := by
  cases x with
  | error e => simp [bind, Except.bind]
  | ok a => simp [bind, Except.bind]

theorem map_eq_ok_iff {ε α β : Type} {x : Except ε α} {f : α → β} {b : β} :
    x.map f = .ok b ↔ ∃ a, x = .ok a ∧ f a = b := by
  cases x with
  | error e => simp [Except.map]
  | ok a => simp [Except.map]

theorem mapError_eq_ok_iff {ε ε' α : Type} {x : Except ε α} {f : ε → ε'} {a : α} :
    x.mapError f = .ok a ↔ x = .ok a := by
  cases x with
  | error e =>
      constructor
      · rintro ⟨⟩
      · rintro ⟨⟩
  | ok b =>
      constructor
      · rintro ⟨⟩
        rfl
      · rintro ⟨⟩
        rfl

section

variable {ε σ α β : Type}

theorem run_bind (x : ExceptT ε (StateM σ) α) (f : α → ExceptT ε (StateM σ) β) (state : σ) :
    (x >>= f).run state = match x.run state with
      | (.ok a, after) => (f a).run after
      | (.error e, after) => (.error e, after) := by
  have run : (x >>= f).run state = ExceptT.bindCont f (x.run state).1 (x.run state).2 := rfl
  rw [run]
  rcases x.run state with ⟨_ | a, after⟩ <;> rfl

/-- A failure is handled from the state that it leaves. -/
theorem run_tryCatch (x : ExceptT ε (StateM σ) α) (handle : ε → ExceptT ε (StateM σ) α)
    (state : σ) :
    (tryCatch x handle).run state = match x.run state with
      | (.ok a, after) => (.ok a, after)
      | (.error e, after) => (handle e).run after := by
  have bind (y : StateM σ (Except ε α)) (f : Except ε α → StateM σ (Except ε α)) :
      (y >>= f) state = f (y state).1 (y state).2 := rfl
  rw [ExceptT.run_tryCatch, bind]
  rcases x.run state with ⟨_ | a, after⟩ <;> rfl

end

namespace Traced

variable {ε ε' ε'' α β : Type}

theorem result_map (f : α → β) (x : Traced ε α) : (f <$> x).result = x.result.map f := by
  rw [map_eq_pure_bind, result_bind]
  cases x.result <;> rfl

theorem mapError_bind (x : Traced ε α) (f : α → Traced ε β) (g : ε → ε') :
    (x >>= f).mapError g = x.mapError g >>= fun a => (f a).mapError g := by
  obtain ⟨_ | a, events⟩ := x <;> rfl

theorem mapError_map (f : α → β) (x : Traced ε α) (g : ε → ε') :
    (f <$> x).mapError g = f <$> x.mapError g := by
  rw [map_eq_pure_bind, map_eq_pure_bind, mapError_bind]
  rfl

theorem mapError_mapError (x : Traced ε α) (g : ε → ε') (h : ε' → ε'') :
    (x.mapError g).mapError h = x.mapError (h ∘ g) := by
  obtain ⟨_ | a, events⟩ := x <;> rfl

/-- What follows a computation only has to agree on its result. -/
theorem bind_congr {x : Traced ε α} {f g : α → Traced ε β}
    (same : ∀ a, x.result = .ok a → f a = g a) : x >>= f = x >>= g := by
  obtain ⟨_ | a, events⟩ := x
  · rfl
  · exact congrArg (fun y => (⟨y.result, events ++ y.events⟩ : Traced ε β)) (same a rfl)

/-- Every result satisfies an assertion. -/
def Gives (x : Traced ε α) (post : α → Prop) : Prop := ∀ a, x.result = .ok a → post a

namespace Gives

variable {x : Traced ε α} {post post' : α → Prop}

theorem mono (h : x.Gives post) (weaker : ∀ a, post a → post' a) : x.Gives post' :=
  fun a given => weaker a (h a given)

theorem pure {a : α} (h : post a) : (Pure.pure a : Traced ε α).Gives post := by
  rintro _ ⟨⟩
  exact h

theorem bind {f : α → Traced ε β} {post : β → Prop} {middle : α → Prop} (first : x.Gives middle)
    (rest : ∀ a, middle a → (f a).Gives post) : (x >>= f).Gives post := by
  intro b given
  rw [result_bind] at given
  obtain ⟨a, outcome, next⟩ := bind_eq_ok_iff.mp given
  exact rest a (first a outcome) b next

theorem map {f : α → β} {post : β → Prop} (h : x.Gives fun a => post (f a)) :
    (f <$> x).Gives post := by
  rw [map_eq_pure_bind]
  exact bind h fun a holds => pure holds

theorem throw (e : ε) : (MonadExceptOf.throw e : Traced ε α).Gives post := by
  rintro _ ⟨⟩

theorem ofExcept {y : Except ε α} (h : ∀ a, y = .ok a → post a) : (Traced.ofExcept y).Gives post :=
  h

theorem any (x : Traced ε α) : x.Gives fun _ => True := fun _ _ => trivial

end Gives

/-! ### What is given -/

/-- What is given, if anything. -/
def value? (x : Traced ε α) : Option α := x.result.toOption

theorem value?_eq_some_iff {x : Traced ε α} {a : α} : x.value? = some a ↔ x.result = .ok a := by
  unfold value?
  cases x.result <;> simp [Except.toOption]

@[simp] theorem value?_pure (a : α) : (Pure.pure a : Traced ε α).value? = some a := rfl

@[simp] theorem value?_tell (level : Level) (source : Source) (text : String) :
    (tell level source text : Traced ε Unit).value? = some () := rfl

@[simp] theorem value?_bind (x : Traced ε α) (f : α → Traced ε β) :
    (x >>= f).value? = x.value?.bind fun a => (f a).value? := by
  unfold value?
  rw [result_bind]
  cases x.result <;> rfl

@[simp] theorem value?_map (f : α → β) (x : Traced ε α) : (f <$> x).value? = x.value?.map f := by
  unfold value?
  rw [result_map]
  cases x.result <;> rfl

@[simp] theorem value?_mapError {ε' : Type} (f : ε → ε') (x : Traced ε α) :
    (x.mapError f).value? = x.value? := by
  unfold value?
  rw [result_mapError]
  cases x.result <;> rfl

end Traced
end SceneEdit
