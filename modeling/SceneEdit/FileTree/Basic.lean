import SceneEdit.FileTree.Route

/-!
# File trees

Directories and files below a directory that always exists. A place is the list of names that leads
to it from the top, a route is one of many ways to write it. A file that is removed lives on for
those who hold it open: they can write to it, but nobody can read it any more.

An action on the tree is a `FileAction`. One that fails keeps what it did before: directories that
were made on the way to a file stay, even if the file cannot be opened.
-/

namespace SceneEdit

/-- Why an action on files fails. -/
inductive FileError where
  | notFound
  | notADirectory
  | isADirectory
  | alreadyExists
  deriving DecidableEq, Repr

/-- The identity of a file, by which it is held open. -/
structure FileId where
  number : Nat
  deriving DecidableEq, Repr

/-- What stands at a place. -/
inductive FileNode where
  | directory
  | file (id : FileId) (content : String)
  deriving DecidableEq, Repr

/-- Text at the end of a file, if the node is that file. -/
def FileNode.append (node : FileNode) (id : FileId) (text : String) : FileNode :=
  match node with
  | file other content => if other = id then file other (content ++ text) else node
  | directory => directory

/-- The places that hold something, and the number of the next file. -/
structure FileTree where
  nodes : List (List String × FileNode) := []
  nextFile : Nat := 0
  deriving DecidableEq, Repr

namespace FileTree

/-- What stands at a place; the top is a directory. -/
def node? (tree : FileTree) : List String → Option FileNode
  | [] => some .directory
  | place => tree.nodes.lookup place

/-- One step on from a directory to the next. The top is above itself. -/
def step (tree : FileTree) (place : List String) : Route.Step → Except FileError (List String)
  | .up => .ok place.dropLast
  | .down name =>
    match tree.node? (place ++ [name]) with
    | some .directory => .ok (place ++ [name])
    | some (.file ..) => .error .notADirectory
    | none => .error .notFound

/-- The directory that steps lead to from the top. -/
def walk (tree : FileTree) (steps : List Route.Step) : Except FileError (List String) :=
  steps.foldlM tree.step []

/-- The place that a route means. A last name may be free; all that comes before it is there. -/
def locate (tree : FileTree) (route : Route) : Except FileError (List String) :=
  match route.name? with
  | some name => (tree.walk route.steps.dropLast).map (· ++ [name])
  | none => tree.walk route.steps

/-- The place that a route means and what stands there. No file answers to a final slash. -/
def lookup (tree : FileTree) (route : Route) : Except FileError (List String × FileNode) := do
  let place ← tree.locate route
  match tree.node? place, route.ending with
  | none, _ => .error .notFound
  | some (.file ..), .slash => .error .notADirectory
  | some node, _ => .ok (place, node)

def contains (tree : FileTree) (route : Route) : Bool := (tree.lookup route).toBool

def isDirectory (tree : FileTree) (route : Route) : Bool :=
  match tree.lookup route with
  | .ok (_, .directory) => true
  | _ => false

def read (tree : FileTree) (route : Route) : Except FileError String := do
  match ← tree.lookup route with
  | (_, .file _ content) => .ok content
  | (_, .directory) => .error .isADirectory

/-- The tree with something put at a free place. -/
def insert (tree : FileTree) (place : List String) (node : FileNode) : FileTree :=
  { tree with nodes := tree.nodes ++ [(place, node)] }

/-- The tree with an empty file at a free place. -/
def insertFile (tree : FileTree) (place : List String) : FileTree :=
  { tree.insert place (.file ⟨tree.nextFile⟩ "") with nextFile := tree.nextFile + 1 }

/-- The tree without a place and all that is below it. -/
def erase (tree : FileTree) (place : List String) : FileTree :=
  { tree with nodes := tree.nodes.filter fun entry => !place.isPrefixOf entry.1 }

/-- The tree after a write at the end of a file held open; if it was removed, the text is lost. -/
def append (tree : FileTree) (id : FileId) (text : String) : FileTree :=
  { tree with nodes := tree.nodes.map fun (place, node) => (place, node.append id text) }

end FileTree

/-- A computation that changes a file tree and may fail; what it changed before stays changed. -/
abbrev FileAction := ExceptT FileError (StateM FileTree)

namespace FileAction

variable {α : Type}

/-- A look at the tree, which changes nothing. -/
def look (f : FileTree → Except FileError α) : FileAction α :=
  ExceptT.mk fun tree => (f tree, tree)

/-- Makes a directory at a free place of one that exists. -/
def makeDirectory (route : Route) : FileAction Unit := do
  let place ← look (·.locate route)
  match (← get).node? place with
  | some _ => throw .alreadyExists
  | none => modify (·.insert place .directory)

/-- Makes a directory unless it is there already. -/
def ensureDirectory (route : Route) : FileAction Unit :=
  tryCatch (makeDirectory route) fun error => do
    unless (← get).isDirectory route do throw error

/-- Makes a directory, and if it has nowhere to stand, the ones above it first. -/
def ensureBelow (route : Route) : List Route → FileAction Unit
  | [] => ensureDirectory route
  | next :: above =>
    tryCatch (ensureDirectory route) fun
      | .notFound => do ensureBelow next above; ensureDirectory route
      | error => throw error

/-- Makes a route lead to a directory, with all directories that it takes to get there. -/
def makeDirectories (route : Route) : FileAction Unit :=
  ensureBelow route (Route.above route.steps)

/-- Opens the file that a route means, which is created if there is none. A route that ends in a
slash never means a file. -/
def openFile (route : Route) : FileAction FileId := do
  let place ← look (·.locate route)
  let tree ← get
  match tree.node? place, route.ending with
  | some .directory, _ | _, .slash => throw .isADirectory
  | some (.file id _), _ => return id
  | none, _ =>
    set (tree.insertFile place)
    return ⟨tree.nextFile⟩

def removeFile (route : Route) : FileAction Unit := do
  match ← look (·.lookup route) with
  | (place, .file ..) => modify (·.erase place)
  | (_, .directory) => throw .isADirectory

/-- Removes a directory with all that is below it. -/
def removeDirectory (route : Route) : FileAction Unit := do
  match ← look (·.lookup route) with
  | (place, .directory) => modify (·.erase place)
  | (_, .file ..) => throw .notADirectory

end FileAction
end SceneEdit
