import SceneEdit.Proofs.Scene.Undo
import SceneEdit.Proofs.Session.Invariant

/-!
# Edits that fail without a trace

An edit is atomic at a scene and notes if its failure leaves them as they were, counters apart. Two
kinds of steps make up such edits. Steps that come first change nothing, whether they fail or not,
and may be followed by anything that is atomic. Steps after the first change must not fail any more;
`Succeeds` says so, with what has to hold before and what holds after.
-/

namespace SceneEdit

namespace Host

variable {host : Host} {request : HostRequest}

/-- The host refuses no request of a kind. -/
def Grants (host : Host) (request : HostRequest) : Prop :=
  ∀ refusal ∈ host.refusals, refusal.request ≠ request

theorem Grants.refuses (granted : host.Grants request) (entity : Option EntityId)
    (type : Option TypeName) : host.refuses request entity type = false := by
  apply List.any_eq_false.mpr
  intro refusal member covered
  simp only [Refusal.covers, Bool.and_eq_true, decide_eq_true_eq] at covered
  exact granted refusal member covered.1.1

theorem grants_of_plain (plain : host.refusals = []) (request : HostRequest) :
    host.Grants request := by
  simp [Grants, plain]

theorem Grants.entity? (granted : host.Grants .viewEntity) (scene : Scene) (id : EntityId) :
    host.entity? scene id = scene.entity? id := by
  rw [Host.entity?, granted.refuses]
  rfl

theorem Grants.editableEntity? (granted : host.Grants .editEntity) (scene : Scene)
    (id : EntityId) : host.editableEntity? scene id = scene.entity? id := by
  rw [Host.editableEntity?, granted.refuses]
  rfl

/-- On a host that hides nothing, walking up finds what an entity lies below. -/
theorem Grants.isWithin_iff (granted : host.Grants .viewEntity) {scene : Scene}
    (forest : scene.Forest) {candidate ancestor : EntityId} :
    host.isWithin scene candidate ancestor = true ↔ scene.Below candidate ancestor := by
  have shown : host.parentOf? scene = scene.parentOf? := by
    funext id
    rw [Host.parentOf?, granted.entity?]
    rfl
  rw [Host.isWithin, Host.lineage, shown]
  exact forest.isWithin_iff

end Host

namespace Edit

variable {α β : Type}

/-! ### Success -/

/-- An edit that cannot fail where an assertion about the scene holds, and then leaves a scene of
which another one holds. -/
def Succeeds (before : Scene → Prop) (x : Edit α) (after : Scene → Prop) : Prop :=
  ∀ session, before session.scene → WP x (fun _ left => after left.scene) (fun _ _ => False) session

namespace Succeeds

variable {before between after : Scene → Prop}

theorem of_imp {before' : Scene → Prop} {x : Edit α} (h : Succeeds before x after)
    (stronger : ∀ scene, before' scene → before scene) : Succeeds before' x after :=
  fun session holds => h session (stronger session.scene holds)

/-- Nothing needs to be known of a failure that cannot be. -/
theorem never_fails {x : Edit α} (h : Succeeds before x after) {failed : Report → Session → Prop}
    {session : Session} (holds : before session.scene) :
    WP x (fun _ _ => True) failed session :=
  (h session holds).mono (fun _ _ _ => trivial) fun _ _ never => never.elim

theorem pure (a : α) : Succeeds before (Pure.pure a : Edit α) before :=
  fun _ h => WP.pure_iff.mpr h

theorem bind {x : Edit α} {f : α → Edit β} (first : Succeeds before x between)
    (rest : ∀ a, Succeeds between (f a) after) : Succeeds before (x >>= f) after := by
  intro session h
  rw [WP.bind_iff]
  exact (first session h).mono (fun a left => rest a left) fun _ _ never => never

theorem note (note : Note) : Succeeds before (.note note) before :=
  fun _ h => WP.note_iff.mpr h

theorem tell (level : Level) (source : Source) (text : String) :
    Succeeds before (.tell level source text) before :=
  fun _ h => WP.tell_iff.mpr h

theorem forM {items : List α} {f : α → Edit PUnit} (each : ∀ a, Succeeds before (f a) before) :
    Succeeds before (items.forM f) before := by
  induction items with
  | nil => exact pure _
  | cons a rest ih => exact (each a).bind fun _ => ih

end Succeeds

/-! ### Failure without a trace -/

/-- Started with a scene and notes, an edit that fails leaves them, counters apart. -/
def Atomic (scene : Scene) (notes : List Note) (x : Edit α) : Prop :=
  ∀ session, session.scene = scene → session.notes = notes →
    WP x (fun _ _ => True) (fun _ left => scene.Agrees left.scene ∧ left.notes = notes) session

namespace Atomic

variable {scene : Scene} {notes : List Note}

/-- A first step that changes nothing; what it finds out may be used in what follows. -/
theorem bind {x : Edit α} {f : α → Edit β} (fact : α → Prop) (quiet : ∀ P, Keeps P x)
    (finds : ∀ session, session.scene = scene → WP x (fun a _ => fact a) (fun _ _ => True) session)
    (rest : ∀ a, fact a → Atomic scene notes (f a)) : Atomic scene notes (x >>= f) := by
  intro session sameScene sameNotes
  rw [WP.bind_iff]
  have same := quiet (fun now sent => now = scene ∧ sent = notes) session ⟨sameScene, sameNotes⟩
  refine (same.and (finds session sameScene)).mono ?_ ?_
  · rintro a left ⟨⟨leftScene, leftNotes⟩, found⟩
    exact rest a found left leftScene leftNotes
  · rintro report left ⟨⟨leftScene, leftNotes⟩, _⟩
    rw [leftScene]
    exact ⟨.refl scene, leftNotes⟩

theorem bind_quiet {x : Edit α} {f : α → Edit β} (quiet : ∀ P, Keeps P x)
    (rest : ∀ a, Atomic scene notes (f a)) : Atomic scene notes (x >>= f) := by
  refine bind (fun _ => True) quiet (fun session _ => ?_) fun a _ => rest a
  exact quiet (fun _ _ => True) session trivial

theorem ite {condition : Prop} [Decidable condition] {x y : Edit α} (yes : Atomic scene notes x)
    (no : Atomic scene notes y) : Atomic scene notes (if condition then x else y) := by
  split
  · exact yes
  · exact no

theorem check {condition : Prop} [Decidable condition] {error : Error} {f : β → Edit α}
    {rest : Edit α} (passed : Atomic scene notes rest) :
    Atomic scene notes (if condition then SceneEdit.fail error >>= f else rest) := by
  split
  · rintro session rfl rfl
    rw [WP.bind_iff, WP.fail_iff]
    exact ⟨.refl _, rfl⟩
  · exact passed

/-- A first change, which may be refused, followed by what undoes it or cannot fail. -/
theorem require_bind {operation : String} {change : Scene → Traced SceneError (α × Scene)}
    {f : α → Edit β}
    (rest : ∀ a changed session, (change scene).result = .ok (a, changed) →
      session.scene = changed → session.notes = notes →
      WP (f a) (fun _ _ => True) (fun _ left => scene.Agrees left.scene ∧ left.notes = notes)
        session) : Atomic scene notes (.require operation change >>= f) := by
  rintro session rfl rfl
  rw [WP.bind_iff, WP.require_iff]
  cases asked : (change session.scene).result with
  | error refusal => exact ⟨.refl _, rfl⟩
  | ok made => exact rest made.1 made.2 _ asked rfl rfl

theorem of_succeeds {x : Edit α} {before after : Scene → Prop} (succeeds : Succeeds before x after)
    (holds : before scene) : Atomic scene notes x := by
  rintro session rfl _
  exact succeeds.never_fails holds

end Atomic
end Edit
end SceneEdit
