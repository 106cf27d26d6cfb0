import SceneEdit.Error
import SceneEdit.Text.Blank
import SceneEdit.Text.Case
import SceneEdit.Text.Control

/-!
# Log events

What the parts of the library tell about their work. Computations that do nothing but tell and
fail are `Traced`: a result together with the events on the way to it. Events never influence a
result, which `result_bind` states: the result of a sequence is the sequence of the results.
-/

namespace SceneEdit

/-- How serious an event is. -/
inductive Level where
  | error
  | warn
  | info
  | debug
  | trace
  deriving DecidableEq, Repr

namespace Level

def rank : Level → Nat
  | error => 0
  | warn => 1
  | info => 2
  | debug => 3
  | trace => 4

def name : Level → String
  | error => "error"
  | warn => "warn"
  | info => "info"
  | debug => "debug"
  | trace => "trace"

def label : Level → String
  | error => "ERROR"
  | warn => "WARN"
  | info => "INFO"
  | debug => "DEBUG"
  | trace => "TRACE"

/-- The names of the levels, most serious first. -/
def names : List (String × Level) :=
  [("error", error), ("warn", warn), ("info", info), ("debug", debug), ("trace", trace)]

/-- The level a text names, in any case. -/
def parse? (text : String) : Option Level := Text.lookupIgnoringCase names text

end Level

/-- The part of the library an event comes from. -/
inductive Source where
  | scene
  | types
  | entities
  | members
  | paths
  | resources
  | requests
  | capabilities
  | lifecycle
  | placement
  | levels
  deriving DecidableEq, Repr

/-- The name log lines give a part. -/
def Source.target : Source → String
  | scene => "scene_probe::memory::scene"
  | types => "scene_probe::type_resolver"
  | entities => "scene_probe::entity_resolver"
  | members => "scene_probe::path_mutator::member_lookup"
  | paths => "scene_probe::path_mutator"
  | resources => "scene_probe::value_coercer::resource"
  | requests => "scene_probe::facade"
  | capabilities => "scene_probe::facade::capabilities"
  | lifecycle => "scene_probe::facade::lifecycle"
  | placement => "scene_probe::facade::placement"
  | levels => "scene_probe::logging::tracing"

/-- One thing told. -/
structure Event where
  level : Level
  source : Source
  text : String
  deriving DecidableEq, Repr

namespace Event

/-- The log line of an event. Only the first line of its text is kept, and what terminals act on is
shown by its number. -/
def line (event : Event) : String :=
  let first := Text.harmless (Text.firstLine event.text.toList)
  s!"{event.level.label} {event.source.target}: {first}"

/-- The log lines of the events that are at least as serious as a level. -/
def lines (level : Level) (events : List Event) : List String :=
  (events.filter fun event => event.level.rank ≤ level.rank).map line

/-- What is told when a level is chosen for what is kept. -/
def levelSet (level : Level) : Event := ⟨.info, .levels, s!"Tracing level set to: {level.name}"⟩

end Event

/-- A result or a failure, and the events on the way to it. -/
structure Traced (ε α : Type) where
  result : Except ε α
  events : List Event := []

namespace Traced

variable {ε ε' α β : Type}

protected def bind (x : Traced ε α) (f : α → Traced ε β) : Traced ε β :=
  match x.result with
  | .ok a =>
    let y := f a
    ⟨y.result, x.events ++ y.events⟩
  | .error e => ⟨.error e, x.events⟩

instance : Monad (Traced ε) where
  pure a := ⟨.ok a, []⟩
  bind := Traced.bind

instance : MonadExceptOf ε (Traced ε) where
  throw e := ⟨.error e, []⟩
  tryCatch x handle :=
    match x.result with
    | .ok _ => x
    | .error e =>
      let y := handle e
      ⟨y.result, x.events ++ y.events⟩

instance : LawfulMonad (Traced ε) := LawfulMonad.mk' (Traced ε)
  (by
    intro α x
    show Traced.bind x (fun a => ⟨.ok a, []⟩) = x
    obtain ⟨result, events⟩ := x
    cases result <;> simp [Traced.bind])
  (by
    intro α β a f
    show Traced.bind ⟨.ok a, []⟩ f = f a
    simp [Traced.bind])
  (by
    intro α β γ x f g
    show Traced.bind (Traced.bind x f) g = Traced.bind x fun a => Traced.bind (f a) g
    obtain ⟨result, events⟩ := x
    cases result with
    | error e => rfl
    | ok a =>
      simp only [Traced.bind]
      cases (f a).result <;> simp)

/-- Tell one event. -/
def tell (level : Level) (source : Source) (text : String) : Traced ε Unit :=
  ⟨.ok (), [⟨level, source, text⟩]⟩

/-- A plain result that tells nothing. -/
def ofExcept (x : Except ε α) : Traced ε α := ⟨x, []⟩

/-- The same computation with its failure put differently. -/
def mapError (f : ε → ε') (x : Traced ε α) : Traced ε' α := ⟨x.result.mapError f, x.events⟩

@[simp] theorem result_pure (a : α) : (pure a : Traced ε α).result = .ok a := rfl

@[simp] theorem result_bind (x : Traced ε α) (f : α → Traced ε β) :
    (x >>= f).result = x.result.bind fun a => (f a).result := by
  show (Traced.bind x f).result = _
  unfold Traced.bind Except.bind
  cases x.result <;> rfl

@[simp] theorem result_throw (e : ε) : (throw e : Traced ε α).result = .error e := rfl

@[simp] theorem result_tell (level : Level) (source : Source) (text : String) :
    (tell level source text : Traced ε Unit).result = .ok () := rfl

@[simp] theorem result_ofExcept (x : Except ε α) : (ofExcept x).result = x := rfl

@[simp] theorem result_mapError (f : ε → ε') (x : Traced ε α) :
    (x.mapError f).result = x.result.mapError f := rfl

end Traced

/-- A computation that fails with a report. -/
abbrev Attempt := Traced Report

/-- Fail with an error that nothing is attached to yet. -/
def fail {m : Type → Type} [MonadExceptOf Report m] {α : Type} (error : Error) : m α :=
  throw { error }

end SceneEdit
