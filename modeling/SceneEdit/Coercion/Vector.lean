import SceneEdit.Number.Numeral
import SceneEdit.Text.Blank
import SceneEdit.Text.Case
import SceneEdit.Token.Printer
import SceneEdit.Value.Basic

/-!
# Converting tokens to vectors

Vectors, rotations and colors come as arrays of numbers, as objects of named components, as texts
of numbers, and colors also as hexadecimal texts.
-/

namespace SceneEdit.Coercion

/-- A number as a component. -/
def toComponent (x : Double) : Except String Single :=
  if x.fitsSingle then .ok x.narrow
  else .error s!"component {NumberLayout.message.write x} is out of range"

/-- The component a text writes; `shown` is how an error quotes it. -/
def componentOfText (shown : String) (text : List Char) : Except String Single :=
  match Numeral.decimal? text with
  | some x => toComponent x
  | none => .error s!"'{shown}' is not a number"

def componentOfToken : Token → Except String Single
  | .num n => toComponent n.toDouble
  | .str s => componentOfText s (Text.trimmed s.toList)
  | other => .error s!"component {other.text} is not a number"

/-- The components found under their names ignoring case; only the alpha of a color may be
absent. -/
def namedComponents (kind : VectorKind) (entries : Entries) :
    List String → Except String (List Single)
  | [] => .ok []
  | name :: rest =>
    match entries.find? fun entry => Text.sameIgnoringCase entry.1 name with
    | some (_, token) => do
      let first ← componentOfToken token
      let more ← namedComponents kind entries rest
      .ok (first :: more)
    | none =>
      if kind = .color ∧ rest = [] then .ok []
      else .error s!"missing component '{name}'"

/-- Numbers separated by commas or blanks, perhaps in parentheses. -/
def delimitedComponents (text : String) : Except String (List Single) :=
  let opened := (Text.trimmed text.toList).dropWhile (· = '(')
  let inner := (opened.reverse.dropWhile (· = ')')).reverse
  let parts := (inner.splitOnP fun c => c = ',' || Text.isBlank c).filter (!·.isEmpty)
  if parts.isEmpty then .error s!"'{text}' holds no components"
  else parts.mapM fun part => componentOfText (String.ofList part) part

/-- The value of a hexadecimal digit. -/
def hexDigit? (c : Char) : Option Nat :=
  if '0' ≤ c ∧ c ≤ '9' then some (c.toNat - '0'.toNat)
  else if 'a' ≤ c ∧ c ≤ 'f' then some (c.toNat - 'a'.toNat + 10)
  else if 'A' ≤ c ∧ c ≤ 'F' then some (c.toNat - 'A'.toNat + 10)
  else none

/-- A byte from two characters: two hexadecimal digits, or a plus sign and one. -/
def hexByte? (high low : Char) : Option Nat :=
  if high = '+' then hexDigit? low
  else do
    let h ← hexDigit? high
    let l ← hexDigit? low
    return 16 * h + l

/-- The components that pairs of hexadecimal digits write, each as a fraction of 255. -/
def hexComponents? : List Char → Option (List Single)
  | high :: low :: rest => do
    let byte ← hexByte? high low
    let more ← hexComponents? rest
    return Binary.ofRatio .single false byte 255 :: more
  | _ => some []

/-- A color written as `#RRGGBB` or `#RRGGBBAA`. -/
def hexColor (text : List Char) : Except String (List Single) :=
  let digits := text.dropWhile (· = '#')
  let shown := String.ofList text
  if digits.all (·.toNat < 0x80) && (digits.length = 6 || digits.length = 8) then
    match hexComponents? digits with
    | some components => .ok components
    | none => .error s!"'{shown}' is not a valid hex color"
  else .error s!"'{shown}' is not a #RRGGBB or #RRGGBBAA color"

/-- The components a token stands for. -/
def vectorComponents (kind : VectorKind) : Token → Except String (List Single)
  | .arr items => items.mapM componentOfToken
  | .obj entries => namedComponents kind entries kind.componentNames
  | .str s =>
    let text := Text.trimmed s.toList
    if kind = .color ∧ text.head? = some '#' then hexColor text else delimitedComponents s
  | other => .error s!"expected an array of numbers, got {other.text}"

def toVector (kind : VectorKind) (token : Token) : Except String Vec := do
  let components ← vectorComponents kind token
  match Vec.ofComponents? kind components with
  | some v => .ok v
  | none =>
    let expected := if kind = .color then "3 or 4" else toString kind.arity
    .error s!"expected {expected} components, got {components.length}"

end SceneEdit.Coercion
