import SceneEdit.Log
import SceneEdit.Request.Form
import SceneEdit.Token.Reader

/-!
# Configuration

What a session can be told about its ways. Every setting has a default, so that an empty document
is a complete configuration. Page sizes are positive and the default one is within the bound; a
document that says otherwise is refused.
-/

namespace SceneEdit

/-- The capability that places entities, and the names of its members. -/
structure TransformBinding where
  capability : String := "Transform"
  position : String := "localPosition"
  /-- Euler angles in degrees. -/
  rotation : String := "localEulerAngles"
  scale : String := "localScale"
  deriving DecidableEq, Repr

namespace TransformBinding

def form : Form TransformBinding :=
  let absent : TransformBinding := {}
  TransformBinding.mk
    <$> .optional "capability" Decoder.string absent.capability
    <*> .optional "position" Decoder.string absent.position
    <*> .optional "rotation" Decoder.string absent.rotation
    <*> .optional "scale" Decoder.string absent.scale

def decode : Decoder TransformBinding := form.decoder "TransformBinding"

def toToken (binding : TransformBinding) : Token :=
  .obj [("capability", .str binding.capability), ("position", .str binding.position),
    ("rotation", .str binding.rotation), ("scale", .str binding.scale)]

end TransformBinding

/-- The settings of a session. -/
structure Config where
  /-- Capabilities on a page when a request does not say. -/
  defaultPageSize : Nat := 25
  /-- The most capabilities on a page, whatever a request says. -/
  maxPageSize : Nat := 200
  /-- Whether hidden members are listed when a request does not say. -/
  includeHidden : Bool := true
  /-- What the names of shader channels start with. -/
  shaderSigil : String := "_"
  transform : TransformBinding := {}
  /-- What is added to the name of a copy that is given none. -/
  duplicateSuffix : String := "_Copy"
  logLevel : Level := .warn
  logFile : Option String := none
  deriving DecidableEq, Repr

namespace Config

def form : Form Config :=
  let absent : Config := {}
  Config.mk
    <$> .optional "default_page_size" Decoder.count absent.defaultPageSize
    <*> .optional "max_page_size" Decoder.count absent.maxPageSize
    <*> .optional "include_hidden_by_default" Decoder.boolean absent.includeHidden
    <*> .optional "shader_sigil" Decoder.string absent.shaderSigil
    <*> .optional "transform" TransformBinding.decode absent.transform
    <*> .optional "duplicate_suffix" Decoder.string absent.duplicateSuffix
    <*> .optional "log_level" (Decoder.variant false Level.names) absent.logLevel
    <*> .optional "log_file" (Decoder.optional Decoder.filePath) absent.logFile

def toToken (config : Config) : Token :=
  .obj [("default_page_size", .nat config.defaultPageSize),
    ("max_page_size", .nat config.maxPageSize),
    ("include_hidden_by_default", .bool config.includeHidden),
    ("shader_sigil", .str config.shaderSigil), ("transform", config.transform.toToken),
    ("duplicate_suffix", .str config.duplicateSuffix), ("log_level", .str config.logLevel.name),
    ("log_file", (config.logFile.map Token.str).getD .null)]

/-- Pages hold something, and the default page is no larger than the largest one. -/
def Valid (config : Config) : Prop :=
  0 < config.defaultPageSize ∧ config.defaultPageSize ≤ config.maxPageSize

/-- Accepts a configuration with consistent page sizes. -/
def validate (config : Config) : Except Report Config :=
  if config.defaultPageSize = 0 || config.maxPageSize = 0 then
    .error { error := .invalid "configuration" "page sizes must be positive" }
  else if config.maxPageSize < config.defaultPageSize then
    let sizes :=
      s!"default_page_size {config.defaultPageSize} exceeds max_page_size {config.maxPageSize}"
    .error { error := .invalid "configuration" sizes }
  else .ok config

/-- The configuration that a document describes. -/
def ofToken (document : Token) : Except Report Config :=
  match form.decoder "ProbeConfig" document with
  | .ok config => config.validate
  | .error failure => .error { error := .invalid "configuration" failure.message }

/-- The configuration in the text of a file, if there is a file. -/
def ofFile (text : Option String) : Except Report Config :=
  match text.bind fun text => Token.parse? Token.documentDepth text.toList with
  | some document => ofToken document
  | none => .error { error := .invalidArgument "Invalid configuration file" }

theorem validate_eq_ok_iff (config accepted : Config) :
    config.validate = .ok accepted ↔ config.Valid ∧ config = accepted := by
  unfold validate Valid
  split
  case isTrue h =>
    simp only [Bool.or_eq_true, decide_eq_true_eq] at h
    simp only [reduceCtorEq, false_iff]
    omega
  case isFalse h =>
    simp only [Bool.or_eq_true, decide_eq_true_eq] at h
    split
    · simp only [reduceCtorEq, false_iff]
      omega
    · simp only [Except.ok.injEq]
      exact ⟨fun same => ⟨by omega, same⟩, And.right⟩

end Config
end SceneEdit
