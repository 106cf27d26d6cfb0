import SceneEdit.Number.Numeral
import SceneEdit.Text.Blank
import SceneEdit.Text.Case
import SceneEdit.Token.Printer
import SceneEdit.Value.Basic

/-!
# Converting tokens to scalars

Conversions to truth values, integers, floats, texts and enum labels. They are lenient about the
form of a token and strict about its value: nothing is rounded or cut off. A conversion that fails
gives its reason.
-/

namespace SceneEdit.Coercion

def truthyWords : List String := ["true", "1", "yes", "on", "y"]

def falsyWords : List String := ["false", "0", "no", "off", "n"]

def toBool : Token → Except String Bool
  | .bool b => .ok b
  | .num n => .ok (!n.toDouble.isZero)
  | .str s =>
    let word := String.ofList (Text.lowercase (Text.trimmed s.toList))
    if truthyWords.contains word then .ok true
    else if falsyWords.contains word then .ok false
    else .error s!"'{s}' is not a boolean"
  | other => .error s!"expected a boolean, got {other.text}"

/-- Whether an integer fits 64 bits. -/
def fitsLong (i : Int) : Bool := decide (-(twoTo 63 : Int) ≤ i ∧ i < (twoTo 63 : Int))

/-- Whether an integer fits 32 bits. -/
def fitsInt (i : Int) : Bool := decide (-(twoTo 31 : Int) ≤ i ∧ i < (twoTo 31 : Int))

/-- The integer that a float is. -/
def integral (x : Double) : Except String Int :=
  match x.toInt? with
  | none => .error s!"{NumberLayout.message.write x} is not a whole number"
  | some i =>
    if fitsLong i then .ok i
    else .error s!"{NumberLayout.message.write x} overflows a 64-bit integer"

def toLong : Token → Except String Int
  | .num (.whole i) =>
    if fitsLong i then .ok i else .error s!"{i} overflows a 64-bit integer"
  | .num (.real x) => integral x
  | .str s =>
    let text := Text.trimmed s.toList
    match Numeral.int64? text with
    | some i => .ok i
    | none =>
      match Numeral.decimal? text with
      | some x => integral x
      | none => .error s!"'{s}' is not an integer"
  | other => .error s!"expected an integer, got {other.text}"

def toInt (token : Token) : Except String Int := do
  let i ← toLong token
  if fitsInt i then .ok i else .error s!"{i} overflows a 32-bit integer"

def toFloat (token : Token) : Except String Double := do
  let x ← match token with
    | .num n => .ok n.toDouble
    | .str s =>
      match Numeral.decimal? (Text.trimmed s.toList) with
      | some x => .ok x
      | none => .error s!"'{s}' is not a number"
    | other => .error s!"expected a number, got {other.text}"
  if x.fitsSingle then .ok x else .error s!"{NumberLayout.message.write x} is out of range"

def toText : Token → Except String String
  | .str s => .ok s
  | .num n => .ok n.text
  | .bool true => .ok "true"
  | .bool false => .ok "false"
  | other => .error s!"expected text, got {other.text}"

/-- The label a text names ignoring case, or that a number counts from zero. -/
def toLabel (type : EnumType) : Token → Except String String
  | .str s =>
    match type.variants.find? fun label => Text.sameIgnoringCase label (Text.trim s) with
    | some label => .ok label
    | none =>
      let listed := String.intercalate ", " type.variants
      .error s!"'{s}' is not a member; valid values: {listed}"
  | .num n =>
    let ordinal := match n with
      | .whole (.ofNat k) => type.variants[k]?
      | _ => none
    match ordinal with
    | some label => .ok label
    | none => .error s!"{n.text} is not a valid ordinal"
  | other => .error s!"expected a member name, got {other.text}"

end SceneEdit.Coercion
