import SceneEdit.Error
import SceneEdit.Number.Numeral
import SceneEdit.Text.Blank

/-!
# Member paths

A path names a slot inside an object: member names joined by dots, each followed by the places to
take in lists, as in `grid[1][2].weight`. `Path.parse` accepts exactly the texts that are such
paths, blanks around them aside, and says of any other text what is wrong with it.
-/

namespace SceneEdit

/-- A member and the places to take in the lists it holds. -/
structure Segment where
  name : String
  indices : List Nat
  deriving DecidableEq, Repr

def Segment.text (segment : Segment) : String :=
  segment.name ++ String.join (segment.indices.map fun i => s!"[{i}]")

/-- A path: the segments that lead to an object, and the one that names a slot of it. -/
structure Path where
  parents : List Segment
  last : Segment
  deriving DecidableEq, Repr

namespace Path

def segments (path : Path) : List Segment := path.parents ++ [path.last]

def text (path : Path) : String := String.intercalate "." (path.segments.map Segment.text)

/-- A path from its segments, of which there must be one. -/
def ofSegments? (segments : List Segment) : Option Path :=
  segments.getLast?.map fun last => ⟨segments.dropLast, last⟩

/-- Characters a member name may have. -/
def isNameChar (c : Char) : Bool := c ≠ '.' && c ≠ '[' && c ≠ ']' && !Text.isBlank c

/-- Places in a list are numbers of 64 bits. -/
def indexBound : Nat := twoTo 64

/-- Bracketed places, one after the other. -/
def indices? (text : List Char) : Option (List Nat) :=
  match text with
  | [] => some []
  | '[' :: rest =>
    match _h : rest.dropWhile Char.isDigit with
    | ']' :: more => do
      let index ← (Numeral.natural? (rest.takeWhile Char.isDigit)).filter (· < indexBound)
      let others ← indices? more
      return index :: others
    | _ => none
  | _ => none
termination_by text.length
decreasing_by
  have shorter : (rest.dropWhile Char.isDigit).length ≤ rest.length :=
    (List.dropWhile_suffix Char.isDigit).length_le
  rw [_h] at shorter
  simp only [List.length_cons] at shorter ⊢
  omega

/-- A name that is not empty, and places. -/
def segment? (text : List Char) : Option Segment :=
  let name := text.takeWhile isNameChar
  if name.isEmpty then none
  else (indices? (text.dropWhile isNameChar)).map fun indices => ⟨String.ofList name, indices⟩

/-- The path a text without blanks around it writes. -/
def parseChars? (text : List Char) : Option Path :=
  ((text.splitOn '.').mapM segment?).bind ofSegments?

/-- What is wrong with the brackets of a text, if anything: one that is not closed, or one around
something that is no place in a list. -/
def bracketFault? (text : List Char) : Option String :=
  match _h : text.dropWhile (· ≠ '[') with
  | [] => none
  | _ :: after =>
    let inner := after.takeWhile (· ≠ ']')
    match _h' : after.dropWhile (· ≠ ']') with
    | [] => some "unbalanced brackets"
    | _ :: rest =>
      let shown := String.ofList inner
      match Numeral.natural? inner with
      | none => some s!"index '{shown}' is not a non-negative integer"
      | some n =>
        if n < indexBound then bracketFault? rest else some s!"index '{shown}' is too large"
termination_by text.length
decreasing_by
  have opened := (List.dropWhile_suffix (l := text) (· ≠ '[')).length_le
  have closed := (List.dropWhile_suffix (l := after) (· ≠ ']')).length_le
  rw [_h] at opened
  rw [_h'] at closed
  simp only [List.length_cons] at opened closed
  omega

/-- What is wrong with a text that is no path. -/
def fault (text : List Char) : String :=
  if text.count '[' ≠ text.count ']' then "unbalanced brackets"
  else match bracketFault? text with
    | some reason => reason
    | none =>
      if text.head? = some '.' || text.getLast? = some '.' ||
          Text.occursIn ['.', '.'] text then
        "empty segment"
      else if text.head? = some '[' || Text.occursIn ['.', '['] text then
        "index without a member name"
      else if text.any Text.isBlank then "member names cannot contain whitespace"
      else "unexpected characters"

/-- The path a text writes. -/
def parse (text : String) : Except Report Path :=
  let chars := Text.trimmed text.toList
  if chars.isEmpty then .error { error := .path text "path is empty" }
  else match parseChars? chars with
    | some path => .ok path
    | none => .error { error := .path text (fault chars) }

end Path
end SceneEdit
