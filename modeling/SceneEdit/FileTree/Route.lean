import SceneEdit.Text.Blank

/-!
# Routes

A route is a file path as it is written: names to go down by and pairs of dots to go up by. How the
text ends matters beside the steps: a slash at the end asks for a directory, and a route that ends
in a dot has no last name, so that nothing can be created under it.
-/

namespace SceneEdit

/-- One step of a route. -/
inductive Route.Step where
  | down (name : String)
  | up
  deriving DecidableEq, Repr

/-- How the text of a route ends. -/
inductive Route.Ending where
  | plain
  /-- A slash, or nothing at all. -/
  | slash
  /-- A dot for the directory itself, with or without slashes behind it. -/
  | dot
  deriving DecidableEq, Repr

/-- A way through a file tree from its top. -/
structure Route where
  steps : List Route.Step
  ending : Route.Ending := .plain
  deriving DecidableEq, Repr

namespace Route

/-- The step of one piece of a path; an empty piece and a single dot lead nowhere. -/
def Step.ofPiece? (piece : String) : Option Step :=
  if piece = "" ∨ piece = "." then none
  else if piece = ".." then some .up
  else some (.down piece)

/-- How a path of some pieces ends. -/
def Ending.ofPieces (pieces : List String) : Ending :=
  if (pieces.filter (· ≠ "")).getLast? = some "." then .dot
  else if pieces.getLast? = some "" then .slash
  else .plain

/-- The route of a path, whose pieces slashes keep apart. -/
def ofText (text : String) : Route :=
  let pieces := (text.toList.splitOn '/').map String.ofList
  { steps := pieces.filterMap Step.ofPiece?, ending := .ofPieces pieces }

/-- The last name of a route, unless dots stand in its place. -/
def name? (route : Route) : Option String :=
  match route.ending, route.steps.getLast? with
  | .dot, _ => none
  | _, some (.down name) => some name
  | _, _ => none

/-- The route without its last step; dots and slashes at the end go with that step. -/
def parent (route : Route) : Route := { steps := route.steps.dropLast }

/-- The routes above the one that takes all steps, the nearest first. -/
def above (steps : List Step) : List Route :=
  ((List.range steps.length).map fun n => { steps := steps.take n }).reverse

end Route
end SceneEdit
