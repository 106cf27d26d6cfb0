import SceneEdit.Text.Blank
import SceneEdit.Text.Case

/-!
# Suggestions for misspelt names

Names close to a misspelt one, nearest first. Closeness is edit distance between lowercase forms,
except that equal forms are at distance zero and a form inside the other is at distance one, so
that a part of a name still suggests the whole.

The edit distance is computed row by row over prefixes of the one text, and given up once every
entry of a row is past the limit: rows never get smaller.
-/

namespace SceneEdit.Suggestion

/-- Names suggested at most. -/
def maxCount : Nat := 3

/-- Distance at which a name still counts as close. -/
def maxDistance : Nat := 3

/-- The rest of a row of edit distances after one more character `c`. `diagonal` and the third
argument are entries of the row before, `left` is the entry just computed. -/
def nextCells (c : Char) : List Char → (diagonal : Nat) → List Nat → (left : Nat) → List Nat
  | n :: needle, diagonal, above :: row, left =>
    let cell := min (min (above + 1) (left + 1)) (diagonal + if c = n then 0 else 1)
    cell :: nextCells c needle above row cell
  | _, _, _, _ => []

/-- The row of edit distances after one more character. -/
def nextRow (c : Char) (needle : List Char) : List Nat → List Nat
  | [] => []
  | first :: row => (first + 1) :: nextCells c needle first row (first + 1)

/-- The distance from the rest of a text, given the row so far; `limit + 1` once a row is past
the limit. -/
def boundedFrom (needle : List Char) (limit : Nat) : List Nat → List Char → Nat
  | row, [] => row.getLastD 0
  | row, c :: rest =>
    let next := nextRow c needle row
    if next.all (limit < ·) then limit + 1 else boundedFrom needle limit next rest

/-- The edit distance of two texts, or `limit + 1` if it exceeds the limit. -/
def boundedDistance (limit : Nat) (text needle : List Char) : Nat :=
  if needle.isEmpty then text.length
  else boundedFrom needle limit (List.range (needle.length + 1)) text

/-- The distance of a name from the lowercase form searched for. -/
def score (needle : List Char) (name : String) : Nat :=
  let lowered := Text.lowercase name.toList
  if lowered = needle then 0
  else if Text.occursIn needle lowered || Text.occursIn lowered needle then 1
  else boundedDistance maxDistance lowered needle

/-- Nearer names come first, equally near ones by their characters. -/
def precedes (a b : Nat × String) : Bool :=
  a.1 < b.1 || (a.1 = b.1 && decide (a.2 ≤ b.2))

/-- The names closest to a misspelt one. -/
def closest (misspelt : String) (names : List String) : List String :=
  let needle := Text.lowercase (Text.trimmed misspelt.toList)
  if needle.isEmpty then []
  else
    let scored := names.eraseDups.map fun name => (score needle name, name)
    let close := scored.filter fun entry => entry.1 ≤ maxDistance
    ((close.mergeSort precedes).take maxCount).map Prod.snd

/-- A sentence with the suggestions for a misspelt name, if there are any, put behind it. -/
def withSuggestions (sentence : String) (suggestions : List String) : String :=
  if suggestions.isEmpty then sentence
  else sentence ++ ". Did you mean: " ++ String.intercalate ", " suggestions ++ "?"

end SceneEdit.Suggestion
