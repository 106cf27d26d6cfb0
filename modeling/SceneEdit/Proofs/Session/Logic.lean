import SceneEdit.Proofs.Log
import SceneEdit.Session.Basic

/-!
# Reasoning about edits

`WP x done failed session` says what holds after the edit `x` starts in `session`: `done` of the
result and the session it leaves, or `failed` of the report and the session that is left then. An
edit always ends, in one of the two ways, so nothing is assumed about termination.

The rules below run an edit symbolically, one for each way edits are made. `Preserves` is the
special case of an assertion that holds before and after, however the edit ends; its rules follow
the same constructions. `Keeps` is the same for assertions about scene and notes, where more rules
hold. An edit that keeps every such assertion changes nothing but the log and the types that are
remembered.
-/

namespace SceneEdit

namespace Edit

variable {α β : Type}

theorem run_bind_eq_ok_iff {x : Edit α} {f : α → Edit β} {session after : Session} {b : β} :
    (x >>= f).run session = (.ok b, after) ↔
      ∃ a middle, x.run session = (.ok a, middle) ∧ (f a).run middle = (.ok b, after) := by
  rw [run_bind]
  rcases x.run session with ⟨report | a, middle⟩
  · constructor
    · intro never
      cases never
    · rintro ⟨_, _, never, -⟩
      cases never
  · constructor
    · exact fun rest => ⟨a, middle, rfl, rest⟩
    · rintro ⟨_, _, same, rest⟩
      cases same
      exact rest

theorem run_orUndo (x : Edit α) (undo : Edit Unit) (adjust : Report → Report)
    (session : Session) :
    (x.orUndo undo adjust).run session = match x.run session with
      | (.ok a, after) => (.ok a, after)
      | (.error report, after) => (undo >>= fun _ => throw (adjust report)).run after := by
  rw [Edit.orUndo, run_tryCatch]
  rcases x.run session with ⟨_ | a, after⟩ <;> rfl

theorem run_reporting (x : Edit α) (adjust : Report → Report) (session : Session) :
    (x.reporting adjust).run session = match x.run session with
      | (.ok a, after) => (.ok a, after)
      | (.error report, after) => (.error (adjust report), after) := by
  have run : (x.reporting adjust).run session =
      ((x.run session).1.mapError adjust, (x.run session).2) := rfl
  rw [run]
  rcases x.run session with ⟨_ | a, after⟩ <;> rfl

/-- What holds after an edit, by the way it ends. -/
def WP (x : Edit α) (done : α → Session → Prop) (failed : Report → Session → Prop)
    (session : Session) : Prop :=
  match x.run session with
  | (.ok a, after) => done a after
  | (.error report, after) => failed report after

namespace WP

variable {done done' : α → Session → Prop} {failed failed' : Report → Session → Prop}
variable {session : Session}

theorem mono {x : Edit α} (h : WP x done failed session)
    (ok : ∀ a after, done a after → done' a after)
    (error : ∀ report after, failed report after → failed' report after) :
    WP x done' failed' session := by
  unfold WP at h ⊢
  split at h
  · exact ok _ _ h
  · exact error _ _ h

theorem and {x : Edit α} (h : WP x done failed session) (h' : WP x done' failed' session) :
    WP x (fun a after => done a after ∧ done' a after)
      (fun report after => failed report after ∧ failed' report after) session := by
  unfold WP at h h' ⊢
  generalize x.run session = outcome at h h' ⊢
  rcases outcome with ⟨_ | a, after⟩
  · exact ⟨h, h'⟩
  · exact ⟨h, h'⟩

theorem true (x : Edit α) : WP x (fun _ _ => True) (fun _ _ => True) session := by
  unfold WP
  split <;> trivial

/-- The strongest assertion: what a run ends with. -/
theorem run (x : Edit α) (session : Session) :
    WP x (fun a after => x.run session = (.ok a, after))
      (fun report after => x.run session = (.error report, after)) session := by
  unfold WP
  split
  · assumption
  · assumption

/-- The outcome of a run, read off an assertion that holds after it. -/
theorem error {x : Edit α} (h : WP x done failed session) {report : Report} {after : Session}
    (run : x.run session = (.error report, after)) : failed report after := by
  rw [WP] at h
  rwa [run] at h

theorem ok {x : Edit α} (h : WP x done failed session) {a : α} {after : Session}
    (run : x.run session = (.ok a, after)) : done a after := by
  rw [WP] at h
  rwa [run] at h

/-- An edit that cannot fail succeeds. -/
theorem exists_ok {x : Edit α} (h : WP x done (fun _ _ => False) session) :
    ∃ a after, x.run session = (.ok a, after) ∧ done a after := by
  rcases ended : x.run session with ⟨report | a, after⟩
  · exact (h.error ended).elim
  · exact ⟨a, after, rfl, h.ok ended⟩

/-- An edit that cannot succeed fails. -/
theorem exists_error {x : Edit α} (h : WP x (fun _ _ => False) failed session) :
    ∃ report after, x.run session = (.error report, after) ∧ failed report after := by
  rcases ended : x.run session with ⟨report | a, after⟩
  · exact ⟨report, after, rfl, h.error ended⟩
  · exact (h.ok ended).elim

@[simp] theorem pure_iff {a : α} : WP (pure a) done failed session ↔ done a session := Iff.rfl

@[simp] theorem bind_iff {x : Edit α} {f : α → Edit β} {done : β → Session → Prop} :
    WP (x >>= f) done failed session ↔ WP x (fun a => WP (f a) done failed) failed session := by
  unfold WP
  rw [run_bind]
  rcases x.run session with ⟨_ | a, after⟩ <;> rfl

/-- A first edit whose run is known. -/
theorem bind_of_run {x : Edit α} {f : α → Edit β} {done : β → Session → Prop} {a : α}
    {middle : Session} (ran : x.run session = (.ok a, middle))
    (rest : WP (f a) done failed middle) :
    WP (x >>= f) done failed session := by
  rw [bind_iff, WP, ran]
  exact rest

theorem throw_iff {report : Report} :
    WP (throw report : Edit α) done failed session ↔ failed report session := Iff.rfl

@[simp] theorem fail_iff {error : Error} :
    WP (fail error : Edit α) done failed session ↔ failed { error } session := Iff.rfl

theorem ofAttempt_iff {x : Attempt α} :
    WP (.ofAttempt x) done failed session ↔
      match x.result with
      | .ok a => done a (session.log x.events)
      | .error report => failed report (session.log x.events) := by
  rw [WP, ofAttempt]
  change (match (x.result, session.log x.events) with
    | (.ok a, after) => done a after
    | (.error report, after) => failed report after) ↔ _
  cases x.result <;> rfl

theorem ofExcept_iff {x : Except Report α} :
    WP (.ofExcept x) done failed session ↔
      match x with
      | .ok a => done a (session.log [])
      | .error report => failed report (session.log []) :=
  ofAttempt_iff

theorem ofOption_iff {error : Error} {x : Option α} :
    WP (.ofOption error x) done failed session ↔
      match x with
      | some a => done a session
      | none => failed { error } session := by
  cases x <;> rfl

@[simp] theorem tell_iff {level : Level} {source : Source} {text : String}
    {done : Unit → Session → Prop} :
    WP (.tell level source text) done failed session ↔
      done () (session.log [⟨level, source, text⟩]) := Iff.rfl

@[simp] theorem get_iff {done : Session → Session → Prop} :
    WP get done failed session ↔ done session session := Iff.rfl

@[simp] theorem modify_iff {change : Session → Session} {done : PUnit → Session → Prop} :
    WP (modify change) done failed session ↔ done ⟨⟩ (change session) := Iff.rfl

@[simp] theorem note_iff {note : Note} {done : Unit → Session → Prop} :
    WP (.note note) done failed session ↔
      done () { session with notes := session.notes ++ [note] } := Iff.rfl

@[simp] theorem scene_iff {done : Scene → Session → Prop} :
    WP .scene done failed session ↔ done session.scene session := Iff.rfl

@[simp] theorem modifyEntity_iff {id : EntityId} {change : Entity → Entity}
    {done : Unit → Session → Prop} :
    WP (.modifyEntity id change) done failed session ↔
      done () { session with scene := session.scene.modify id change } := Iff.rfl

/-- A caught failure is a result. -/
@[simp] theorem outcome_iff {x : Edit α} {done : Except Report α → Session → Prop} :
    WP x.outcome done failed session ↔
      WP x (fun a => done (.ok a)) (fun report => done (.error report)) session := by
  change done (x.run session).1 (x.run session).2 ↔ _
  rw [WP]
  rcases x.run session with ⟨_ | a, after⟩ <;> rfl

/-- The failure is reported from the session that the undoing leaves. -/
@[simp] theorem orUndo_iff {x : Edit α} {undo : Edit Unit} {adjust : Report → Report} :
    WP (x.orUndo undo adjust) done failed session ↔
      WP x done (fun report => WP undo (fun _ => failed (adjust report)) failed) session := by
  unfold WP
  rw [run_orUndo]
  rcases x.run session with ⟨report | a, after⟩
  · exact bind_iff
  · rfl

@[simp] theorem reporting_iff {x : Edit α} {adjust : Report → Report} :
    WP (x.reporting adjust) done failed session ↔
      WP x done (fun report => failed (adjust report)) session := by
  unfold WP
  rw [run_reporting]
  rcases x.run session with ⟨report | a, after⟩ <;> rfl

/-- A refused request leaves the scene as it was. -/
theorem request_iff {change : Scene → Traced SceneError (α × Scene)}
    {done : Except SceneError α → Session → Prop} :
    WP (.request change) done failed session ↔
      match (change session.scene).result with
      | .ok (a, scene) =>
        done (.ok a) { session.log (change session.scene).events with scene }
      | .error refusal =>
        done (.error refusal) (session.log (change session.scene).events) := by
  have run : (Edit.request change).run session =
      match (change session.scene).result with
      | .ok (a, scene) =>
        (.ok (.ok a), { session.log (change session.scene).events with scene })
      | .error refusal => (.ok (.error refusal), session.log (change session.scene).events) := rfl
  rw [WP, run]
  rcases (change session.scene).result with refusal | ⟨a, scene⟩ <;> rfl

theorem require_iff {operation : String} {change : Scene → Traced SceneError (α × Scene)} :
    WP (.require operation change) done failed session ↔
      match (change session.scene).result with
      | .ok (a, scene) => done a { session.log (change session.scene).events with scene }
      | .error refusal => failed { error := .refused operation refusal.message }
        (session.log (change session.scene).events) := by
  rw [Edit.require, bind_iff, request_iff]
  rcases (change session.scene).result with refusal | ⟨a, scene⟩ <;> rfl

end WP

-- The rules are all that is needed; unfolding would run the edits.
attribute [irreducible] WP

/-- An assertion that holds after an edit, however it ends, if it held before. -/
def Preserves (I : Session → Prop) (x : Edit α) : Prop :=
  ∀ session, I session → WP x (fun _ => I) (fun _ => I) session

namespace Preserves

variable {I : Session → Prop}

theorem pure (a : α) : Preserves I (Pure.pure a : Edit α) := fun _ h => WP.pure_iff.mpr h

theorem bind {x : Edit α} {f : α → Edit β} (first : Preserves I x)
    (rest : ∀ a, Preserves I (f a)) : Preserves I (x >>= f) := by
  intro session h
  rw [WP.bind_iff]
  exact (first session h).mono (fun a after => rest a after) fun _ _ h => h

theorem map {x : Edit α} {f : α → β} (h : Preserves I x) : Preserves I (f <$> x) := by
  rw [map_eq_pure_bind]
  exact h.bind fun a => pure (f a)

theorem fail (error : Error) : Preserves I (SceneEdit.fail error : Edit α) :=
  fun _ h => WP.fail_iff.mpr h

theorem throw (report : Report) : Preserves I (MonadExcept.throw report : Edit α) :=
  fun _ h => WP.throw_iff.mpr h

theorem ofAttempt (logs : ∀ session events, I session → I (session.log events)) (x : Attempt α) :
    Preserves I (.ofAttempt x) := by
  intro session h
  rw [WP.ofAttempt_iff]
  cases x.result <;> exact logs session x.events h

theorem ofOption (error : Error) (x : Option α) : Preserves I (.ofOption error x) := by
  cases x with
  | none => exact fail error
  | some a => exact pure a

theorem get : Preserves I (MonadState.get : Edit Session) := fun _ h => WP.get_iff.mpr h

theorem scene : Preserves I .scene := fun _ h => WP.scene_iff.mpr h

theorem outcome {x : Edit α} (h : Preserves I x) : Preserves I x.outcome := by
  intro session before
  rw [WP.outcome_iff]
  exact h session before

theorem orUndo {x : Edit α} {undo : Edit Unit} {adjust : Report → Report} (h : Preserves I x)
    (undone : Preserves I undo) : Preserves I (x.orUndo undo adjust) := by
  intro session before
  rw [WP.orUndo_iff]
  exact (h session before).mono (fun _ _ h => h) fun _ after h => undone after h

theorem reporting {x : Edit α} {adjust : Report → Report} (h : Preserves I x) :
    Preserves I (x.reporting adjust) := by
  intro session before
  rw [WP.reporting_iff]
  exact h session before

theorem ite {condition : Prop} [Decidable condition] {x y : Edit α} (yes : Preserves I x)
    (no : Preserves I y) : Preserves I (if condition then x else y) := by
  split
  · exact yes
  · exact no

/-- A failed check stops what would follow. -/
theorem check {condition : Prop} [Decidable condition] {error : Error} {f : β → Edit α}
    {rest : Edit α} (passed : Preserves I rest) :
    Preserves I (if condition then SceneEdit.fail error >>= f else rest) := by
  split
  · intro session h
    rw [WP.bind_iff, WP.fail_iff]
    exact h
  · exact passed

theorem mapM {items : List α} {f : α → Edit β} (each : ∀ a, Preserves I (f a)) :
    Preserves I (items.mapM f) := by
  induction items with
  | nil => exact pure []
  | cons a rest ih =>
      rw [List.mapM_cons]
      exact (each a).bind fun _ => ih.bind fun _ => pure _

theorem mapMOption {item : Option α} {f : α → Edit β} (each : ∀ a, Preserves I (f a)) :
    Preserves I (item.mapM f) := by
  cases item with
  | none => exact pure none
  | some a => exact (each a).map

theorem forM {items : List α} {f : α → Edit PUnit} (each : ∀ a, Preserves I (f a)) :
    Preserves I (items.forM f) := by
  induction items with
  | nil => exact pure _
  | cons a rest ih => exact (each a).bind fun _ => ih

end Preserves

/-- An assertion about the scene and the notes that holds after an edit, however it ends, if it
held before. -/
def Keeps (P : Scene → List Note → Prop) (x : Edit α) : Prop :=
  ∀ session, P session.scene session.notes →
    WP x (fun _ after => P after.scene after.notes) (fun _ after => P after.scene after.notes)
      session

namespace Keeps

variable {P : Scene → List Note → Prop}

theorem pure (a : α) : Keeps P (Pure.pure a : Edit α) := Preserves.pure a

theorem bind {x : Edit α} {f : α → Edit β} (first : Keeps P x) (rest : ∀ a, Keeps P (f a)) :
    Keeps P (x >>= f) := Preserves.bind first rest

theorem map {x : Edit α} {f : α → β} (h : Keeps P x) : Keeps P (f <$> x) := Preserves.map h

theorem fail (error : Error) : Keeps P (SceneEdit.fail error : Edit α) := Preserves.fail error

theorem throw (report : Report) : Keeps P (MonadExcept.throw report : Edit α) :=
  Preserves.throw report

theorem ofAttempt (x : Attempt α) : Keeps P (.ofAttempt x) :=
  Preserves.ofAttempt (fun _ _ h => h) x

theorem ofExcept (x : Except Report α) : Keeps P (.ofExcept x) := ofAttempt _

theorem ofOption (error : Error) (x : Option α) : Keeps P (.ofOption error x) :=
  Preserves.ofOption error x

theorem tell (level : Level) (source : Source) (text : String) :
    Keeps P (.tell level source text) := ofAttempt _

theorem get : Keeps P (MonadState.get : Edit Session) := Preserves.get

theorem scene : Keeps P .scene := Preserves.scene

/-- Remembering types is no change of the scene. -/
theorem setTypes (types : TypeCache) :
    Keeps P (modify fun session => { session with types } : Edit PUnit) :=
  fun _ h => WP.modify_iff.mpr h

theorem outcome {x : Edit α} (h : Keeps P x) : Keeps P x.outcome := Preserves.outcome h

theorem orUndo {x : Edit α} {undo : Edit Unit} {adjust : Report → Report} (h : Keeps P x)
    (undone : Keeps P undo) : Keeps P (x.orUndo undo adjust) := Preserves.orUndo h undone

theorem reporting {x : Edit α} {adjust : Report → Report} (h : Keeps P x) :
    Keeps P (x.reporting adjust) := Preserves.reporting h

theorem ite {condition : Prop} [Decidable condition] {x y : Edit α} (yes : Keeps P x)
    (no : Keeps P y) : Keeps P (if condition then x else y) := Preserves.ite yes no

theorem check {condition : Prop} [Decidable condition] {error : Error} {f : β → Edit α}
    {rest : Edit α} (passed : Keeps P rest) :
    Keeps P (if condition then SceneEdit.fail error >>= f else rest) := Preserves.check passed

theorem mapM {items : List α} {f : α → Edit β} (each : ∀ a, Keeps P (f a)) :
    Keeps P (items.mapM f) := Preserves.mapM each

theorem mapMOption {item : Option α} {f : α → Edit β} (each : ∀ a, Keeps P (f a)) :
    Keeps P (item.mapM f) := Preserves.mapMOption each

theorem forM {items : List α} {f : α → Edit PUnit} (each : ∀ a, Keeps P (f a)) :
    Keeps P (items.forM f) := Preserves.forM each

/-- A request keeps what the change it asks for keeps. -/
theorem request {change : Scene → Traced SceneError (α × Scene)}
    (keeps : ∀ scene notes a changed, P scene notes → (change scene).result = .ok (a, changed) →
      P changed notes) : Keeps P (.request change) := by
  intro session h
  rw [WP.request_iff]
  cases asked : (change session.scene).result with
  | error refusal => exact h
  | ok changed => exact keeps _ _ changed.1 changed.2 h asked

theorem require {operation : String} {change : Scene → Traced SceneError (α × Scene)}
    (keeps : ∀ scene notes a changed, P scene notes → (change scene).result = .ok (a, changed) →
      P changed notes) : Keeps P (.require operation change) := by
  apply (request keeps).bind
  intro answer
  cases answer with
  | error refusal => exact fail _
  | ok a => exact pure a

theorem modifyEntity {id : EntityId} {change : Entity → Entity}
    (keeps : ∀ scene notes, P scene notes → P (scene.modify id change) notes) :
    Keeps P (.modifyEntity id change) :=
  fun session h => WP.modifyEntity_iff.mpr (keeps session.scene session.notes h)

theorem note {note : Note} (keeps : ∀ scene notes, P scene notes → P scene (notes ++ [note])) :
    Keeps P (.note note) :=
  fun session h => WP.note_iff.mpr (keeps session.scene session.notes h)

end Keeps
end Edit
end SceneEdit
