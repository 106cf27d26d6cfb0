import SceneEdit.Text.Quoted
import SceneEdit.Token.Printer

/-!
# Decoding tokens

Typed readings of a token: texts, flags, counts, references and names from a fixed set. A reading
that fails says what it found and what it expected.
-/

namespace SceneEdit

/-- Why a token is not what was expected. -/
inductive DecodeError where
  | missingField (name : String)
  | duplicateField (name : String)
  | invalidType (found expected : String)
  | invalidValue (found expected : String)
  | unknownVariant (found : String) (known : List String)
  | invalidLength (found : Nat) (expected : String)
  /-- A token that cannot refer to an entity. -/
  | notReference (found : String)
  deriving DecidableEq, Repr

namespace DecodeError

def message : DecodeError → String
  | missingField name => s!"missing field `{name}`"
  | duplicateField name => s!"duplicate field `{name}`"
  | invalidType found expected => s!"invalid type: {found}, expected {expected}"
  | invalidValue found expected => s!"invalid value: {found}, expected {expected}"
  | unknownVariant found known =>
    let listed := String.intercalate ", " (known.map fun name => s!"`{name}`")
    s!"unknown variant `{found}`, expected one of {listed}"
  | invalidLength found expected => s!"invalid length {found}, expected {expected}"
  | notReference found => s!"expected an entity name, path or id, got {found}"

end DecodeError

/-- What a token is, in the words of decoding errors. -/
def Token.described : Token → String
  | null => "null"
  | bool true => "boolean `true`"
  | bool false => "boolean `false`"
  | num (.whole i) => s!"integer `{i}`"
  | num (.real x) => s!"floating point `{Number.layout.write x}`"
  | str s => s!"string {Text.quoted s}"
  | arr _ => "sequence"
  | obj _ => "map"

/-- A typed reading of tokens. -/
abbrev Decoder (α : Type) := Token → Except DecodeError α

namespace Decoder

variable {α : Type}

/-- The token is of the wrong type. -/
def mismatch (expected : String) (token : Token) : Except DecodeError α :=
  .error (.invalidType token.described expected)

def string : Decoder String
  | .str s => .ok s
  | other => mismatch "a string" other

def boolean : Decoder Bool
  | .bool b => .ok b
  | other => mismatch "a boolean" other

/-- A natural number. -/
def count : Decoder Nat
  | .num (.whole (.ofNat n)) => .ok n
  | .num (.whole i) => .error (.invalidValue s!"integer `{i}`" "usize")
  | other => mismatch "usize" other

/-- A number, rounded to the narrow format. -/
def component : Decoder Single
  | .num (.whole i) => .ok (Binary.ofInt .single i)
  | .num (.real x) => .ok x.narrow
  | other => mismatch "f32" other

def filePath : Decoder String
  | .str s => .ok s
  | other => mismatch "path string" other

def entries : Decoder Entries
  | .obj entries => .ok entries
  | other => mismatch "a map" other

/-- Any token. -/
def anything : Decoder Token := .ok

/-- A text, or a number as its text. -/
def reference : Decoder String
  | .str s => .ok s
  | .num n => .ok n.text
  | other => .error (.notReference other.text)

/-- Null is nothing. -/
def optional (decode : Decoder α) : Decoder (Option α)
  | .null => .ok none
  | other => (decode other).map some

/-- The items of an array, one after the other. -/
def list (decode : Decoder α) : Decoder (List α)
  | .arr items => items.mapM decode
  | other => mismatch "a sequence" other

/-- The value that a name stands for. -/
def named (names : List (String × α)) (name : String) : Except DecodeError α :=
  match names.lookup name with
  | some a => .ok a
  | none => .error (.unknownVariant name (names.map Prod.fst))

/-- One of some names, alone or as the only key of an object whose value is null; `lenient`
readings take an empty object for null. -/
def variant (lenient : Bool) (names : List (String × α)) : Decoder α
  | .str name => named names name
  | .obj [(name, payload)] => do
    let a ← named names name
    match payload with
    | .null => .ok a
    | .obj [] => if lenient then .ok a else mismatch "unit" payload
    | other => mismatch "unit" other
  | .obj _ => .error (.invalidValue "map" "map with a single key")
  | other => mismatch "string or map" other

end Decoder
end SceneEdit
