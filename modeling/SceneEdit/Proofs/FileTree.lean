import SceneEdit.FileTree.Basic
import SceneEdit.Proofs.Log

/-!
# Where routes lead

A route that can be followed leads to one place, whatever the tree looks like: the place where its
steps lead from the top (`Route.place`). All that comes before the last step of such a route is a
directory. So a file that is opened through a route is at none of the places that the route passes
(`Route.Direct`), and making the directories on the way never gets in the way of the file.

Making directories adds directories at free places and changes nothing else (`Grown`).
-/

namespace SceneEdit

/-! ### Places -/

namespace Route

/-- The place one step on. -/
def Step.onward (place : List String) : Step → List String
  | .up => place.dropLast
  | .down name => place ++ [name]

/-- The place that a route means, if it means one. -/
def place (route : Route) : List String := route.steps.foldl Step.onward []

/-- The routes above a route mean other places than the route itself. -/
def Direct (route : Route) : Prop := ∀ way ∈ above route.steps, way.place ≠ route.place

theorem mem_above {steps : List Step} {way : Route} :
    way ∈ above steps ↔ ∃ n < steps.length, way = { steps := steps.take n } := by
  simp [above, eq_comm]

theorem steps_of_name? {route : Route} {name : String} (named : route.name? = some name) :
    route.steps = route.steps.dropLast ++ [.down name] := by
  unfold name? at named
  split at named
  · cases named
  · rename_i last _
    cases named
    obtain ⟨before, steps⟩ := List.getLast?_eq_some_iff.mp last
    rw [steps, List.dropLast_concat]
  · cases named

theorem place_of_name? {route : Route} {name : String} (named : route.name? = some name) :
    route.place = route.steps.dropLast.foldl Step.onward [] ++ [name] := by
  rw [place, steps_of_name? named, List.foldl_append, List.dropLast_concat]
  rfl

end Route

namespace FileTree

variable {tree tree' : FileTree} {place place' : List String} {route : Route}

/-! ### Changes of a tree -/

theorem node?_insert (free : tree.node? place = none) (node : FileNode) (place' : List String) :
    (tree.insert place node).node? place' =
      if place' = place then some node else tree.node? place' := by
  cases place' with
  | nil =>
      have top : [] ≠ place := by
        rintro rfl
        cases free
      rw [if_neg top]
      rfl
  | cons name rest =>
      change (tree.nodes ++ [(place, node)]).lookup (name :: rest) = _
      rw [List.lookup_append]
      split
      · rename_i same
        subst same
        rw [show tree.nodes.lookup (name :: rest) = none from free]
        simp
      · rename_i other
        have elsewhere : ((name :: rest : List String) == place) = false := by simpa using other
        simp only [List.lookup_cons, elsewhere, List.lookup_nil, Option.or_none]
        rfl

/-- What is erased is gone, and what is not erased stays as it was. -/
theorem node?_erase (gone place : List String) :
    (tree.erase gone).node? place = tree.node? place ∨ (tree.erase gone).node? place = none := by
  cases place with
  | nil => exact Or.inl rfl
  | cons name rest =>
      change (tree.nodes.filter _).lookup (name :: rest) = tree.nodes.lookup (name :: rest) ∨
        (tree.nodes.filter _).lookup (name :: rest) = none
      induction tree.nodes with
      | nil => exact Or.inl rfl
      | cons entry more ih =>
          obtain ⟨key, node⟩ := entry
          rw [List.filter_cons]
          split
          · rw [List.lookup_cons, List.lookup_cons]
            split
            · exact Or.inl rfl
            · exact ih
          · rename_i below
            rw [List.lookup_cons]
            split
            · rename_i same
              obtain rfl : name :: rest = key := by simpa using same
              right
              refine List.lookup_eq_none_iff.mpr fun entry member => ?_
              have kept := (List.mem_filter.mp member).2
              refine bne_iff_ne.mpr ?_
              rintro same
              rw [← same] at kept
              exact below kept
            · exact ih

theorem node?_append (id : FileId) (text : String) (place : List String) :
    (tree.append id text).node? place = (tree.node? place).map (·.append id text) := by
  cases place with
  | nil => rfl
  | cons name rest =>
      change (tree.nodes.map _).lookup (name :: rest) = (tree.nodes.lookup (name :: rest)).map _
      induction tree.nodes with
      | nil => rfl
      | cons entry more ih =>
          rw [List.map_cons, List.lookup_cons, List.lookup_cons]
          split
          · rfl
          · exact ih

/-! ### Following a route -/

/-- A place that is a directory, as is all that is above it. -/
def Open (tree : FileTree) (place : List String) : Prop :=
  ∀ above, above <+: place → tree.node? above = some .directory

theorem Open.top : tree.Open [] := by
  intro above inside
  rw [List.prefix_nil.mp inside]
  rfl

theorem Open.step (way : tree.Open place) {step : Route.Step}
    (taken : tree.step place step = .ok place') :
    place' = step.onward place ∧ tree.Open place' := by
  cases step with
  | up =>
      cases taken
      exact ⟨rfl, fun above inside => way above (inside.trans (List.dropLast_prefix place))⟩
  | down name =>
      rw [FileTree.step] at taken
      split at taken
      · rename_i there
        cases taken
        refine ⟨rfl, fun above inside => ?_⟩
        obtain rfl | before := List.prefix_concat_iff.mp inside
        · exact there
        · exact way above before
      · cases taken
      · cases taken

/-- Steps that can be taken lead to the place that they mean, through directories only. -/
theorem Open.walk (way : tree.Open place) {steps : List Route.Step}
    (taken : steps.foldlM tree.step place = .ok place') :
    place' = steps.foldl Route.Step.onward place ∧ tree.Open place' := by
  induction steps generalizing place with
  | nil =>
      cases taken
      exact ⟨rfl, way⟩
  | cons step rest ih =>
      rw [List.foldlM_cons] at taken
      obtain ⟨next, first, later⟩ := bind_eq_ok_iff.mp taken
      obtain ⟨rfl, on⟩ := way.step first
      exact ih on later

/-- A walk passes the places that its first steps mean. -/
theorem node?_of_walk {steps : List Route.Step} (taken : tree.walk steps = .ok place) (n : Nat) :
    tree.node? (Route.place { steps := steps.take n }) = some .directory := by
  rw [walk, ← List.take_append_drop n steps, List.foldlM_append] at taken
  obtain ⟨middle, first, -⟩ := bind_eq_ok_iff.mp taken
  obtain ⟨rfl, way⟩ := Open.top.walk first
  exact way _ List.prefix_rfl

/-- A tree that keeps its directories can be walked as before. -/
theorem walk_of_directories
    (keeps : ∀ place, tree.node? place = some .directory → tree'.node? place = some .directory)
    {steps : List Route.Step} (taken : steps.foldlM tree.step place = .ok place') :
    steps.foldlM tree'.step place = .ok place' := by
  induction steps generalizing place with
  | nil => exact taken
  | cons step rest ih =>
      rw [List.foldlM_cons] at taken ⊢
      obtain ⟨next, first, later⟩ := bind_eq_ok_iff.mp taken
      refine bind_eq_ok_iff.mpr ⟨next, ?_, ih later⟩
      cases step with
      | up => exact first
      | down name =>
          rw [FileTree.step] at first ⊢
          split at first
          · rename_i there
            rw [keeps _ there]
            exact first
          · cases first
          · cases first

theorem locate_of_directories
    (keeps : ∀ place, tree.node? place = some .directory → tree'.node? place = some .directory)
    (found : tree.locate route = .ok place) : tree'.locate route = .ok place := by
  rw [locate] at found ⊢
  split at found
  · obtain ⟨before, taken, same⟩ := map_eq_ok_iff.mp found
    exact map_eq_ok_iff.mpr ⟨before, walk_of_directories keeps taken, same⟩
  · exact walk_of_directories keeps found

theorem eq_place_of_locate (found : tree.locate route = .ok place) : place = route.place := by
  rw [locate] at found
  split at found
  · rename_i name named
    obtain ⟨before, taken, rfl⟩ := map_eq_ok_iff.mp found
    rw [(Open.top.walk taken).1, Route.place_of_name? named]
  · exact (Open.top.walk found).1

/-- A route to a place that is no directory passes other places only. -/
theorem direct_of_locate (found : tree.locate route = .ok place)
    (file : tree.node? place ≠ some .directory) : route.Direct := by
  have same := eq_place_of_locate found
  rw [locate] at found
  split at found
  · rename_i name named
    obtain ⟨before, taken, -⟩ := map_eq_ok_iff.mp found
    intro way member meets
    obtain ⟨n, within, rfl⟩ := Route.mem_above.mp member
    have passed := node?_of_walk taken n
    rw [Route.steps_of_name? named, List.length_append, List.length_singleton] at within
    rw [Route.steps_of_name? named, List.take_append_of_le_length (by omega)] at meets
    rw [meets, ← same] at passed
    exact file passed
  · exact absurd ((Open.top.walk found).2 place List.prefix_rfl) file

/-- The text of the file at a place. -/
def content? (tree : FileTree) (place : List String) : Option String :=
  match tree.node? place with
  | some (.file _ text) => some text
  | _ => none

/-- A route leads to a file if it can be followed to the place of the file and has no slash at the
end. -/
theorem lookup_eq_file_iff {id : FileId} {text : String} :
    tree.lookup route = .ok (place, .file id text) ↔
      tree.locate route = .ok place ∧ tree.node? place = some (.file id text) ∧
        route.ending ≠ .slash := by
  rw [lookup, bind_eq_ok_iff]
  constructor
  · rintro ⟨_, found, there⟩
    split at there
    · cases there
    · cases there
    · rename_i same never
      cases there
      exact ⟨found, same, fun slash => never id text slash rfl⟩
  · rintro ⟨found, there, plain⟩
    refine ⟨place, found, ?_⟩
    rw [there]
    split
    · simp_all
    · simp_all
    · simp_all

theorem mem_of_lookup {node : FileNode} (found : tree.lookup route = .ok (place, node)) :
    place = route.place ∧ tree.node? place = some node := by
  obtain ⟨located, follows, there⟩ := bind_eq_ok_iff.mp found
  split at there
  · cases there
  · cases there
  · rename_i same _
    cases there
    exact ⟨eq_place_of_locate follows, same⟩

theorem content?_of_lookup {id : FileId} {text : String}
    (found : tree.lookup route = .ok (place, .file id text)) :
    tree.content? place = some text := by
  rw [content?, (lookup_eq_file_iff.mp found).2.1]

theorem read_of_lookup {id : FileId} {text : String}
    (found : tree.lookup route = .ok (place, .file id text)) : tree.read route = .ok text :=
  bind_eq_ok_iff.mpr ⟨_, found, rfl⟩

/-- A route leads to the file that it led to before something was written to it. -/
theorem lookup_append {id : FileId} {text : String} (more : String)
    (found : tree.lookup route = .ok (place, .file id text)) :
    (tree.append id more).lookup route = .ok (place, .file id (text ++ more)) := by
  obtain ⟨located, there, plain⟩ := lookup_eq_file_iff.mp found
  have located' : (tree.append id more).locate route = .ok place :=
    locate_of_directories (fun place directory => by rw [node?_append, directory]; rfl) located
  refine lookup_eq_file_iff.mpr ⟨located', ?_, plain⟩
  rw [node?_append, there, Option.map_some, FileNode.append, if_pos rfl]

/-! ### Making directories -/

/-- The tree with more directories, at free places that some routes mean. -/
def Grown (routes : List Route) (tree tree' : FileTree) : Prop :=
  ∀ place, tree'.node? place = tree.node? place ∨
    tree.node? place = none ∧ tree'.node? place = some .directory ∧
      ∃ route ∈ routes, route.place = place

namespace Grown

variable {routes more : List Route} {tree'' : FileTree}

theorem refl : Grown routes tree tree := fun _ => Or.inl rfl

theorem trans (first : Grown routes tree tree') (second : Grown routes tree' tree'') :
    Grown routes tree tree'' := by
  intro place
  obtain same | ⟨free, made, means⟩ := first place
  · obtain same' | ⟨free, made, means⟩ := second place
    · exact Or.inl (same'.trans same)
    · exact Or.inr ⟨same ▸ free, made, means⟩
  · obtain same' | ⟨free', -⟩ := second place
    · exact Or.inr ⟨free, same'.trans made, means⟩
    · rw [made] at free'
      cases free'

theorem mono (grown : Grown routes tree tree') (subset : routes ⊆ more) :
    Grown more tree tree' := by
  intro place
  obtain same | ⟨free, made, route, member, means⟩ := grown place
  · exact Or.inl same
  · exact Or.inr ⟨free, made, route, subset member, means⟩

/-- No file comes or goes, and none is written to. -/
theorem content?_eq (grown : Grown routes tree tree') (place : List String) :
    tree'.content? place = tree.content? place := by
  obtain same | ⟨free, made, -⟩ := grown place
  · rw [content?, content?, same]
  · rw [content?, content?, free, made]

/-- The place that a direct route means is left alone by what is made above it. -/
theorem node?_eq (grown : Grown (Route.above route.steps) tree tree') (direct : route.Direct) :
    tree'.node? route.place = tree.node? route.place := by
  obtain same | ⟨-, -, way, member, means⟩ := grown route.place
  · exact same
  · exact absurd means (direct way member)

end Grown

theorem grown_insert (free : tree.node? route.place = none) :
    Grown [route] tree (tree.insert route.place .directory) := by
  intro place
  rw [node?_insert free]
  split
  · rename_i same
    exact Or.inr ⟨same ▸ free, rfl, route, List.mem_singleton_self route, same.symm⟩
  · exact Or.inl rfl

end FileTree

namespace FileAction

open FileTree

variable {α β : Type} {routes : List Route} {tree : FileTree} {place : List String}

/-- An action that makes nothing but directories, at places that some routes mean. -/
def Grows (routes : List Route) (x : FileAction α) : Prop :=
  ∀ tree, Grown routes tree (x.run tree).2

namespace Grows

theorem throw (error : FileError) : Grows routes (MonadExcept.throw error : FileAction α) :=
  fun _ => Grown.refl

theorem bind {x : FileAction α} {f : α → FileAction β} (first : Grows routes x)
    (rest : ∀ a, Grows routes (f a)) : Grows routes (x >>= f) := by
  intro tree
  rw [run_bind]
  have grown := first tree
  rcases outcome : x.run tree with ⟨error | a, after⟩
  · rw [outcome] at grown
    exact grown
  · rw [outcome] at grown
    exact grown.trans (rest a after)

theorem tryCatch {x : FileAction α} {handle : FileError → FileAction α} (first : Grows routes x)
    (rest : ∀ error, Grows routes (handle error)) :
    Grows routes (MonadExcept.tryCatch x handle) := by
  intro tree
  rw [run_tryCatch]
  have grown := first tree
  rcases outcome : x.run tree with ⟨error | a, after⟩
  · rw [outcome] at grown
    exact grown.trans (rest error after)
  · rw [outcome] at grown
    exact grown

theorem mono {more : List Route} {x : FileAction α} (grows : Grows routes x)
    (subset : routes ⊆ more) : Grows more x := fun tree => (grows tree).mono subset

end Grows

theorem makeDirectory_run (route : Route) (tree : FileTree) :
    (makeDirectory route).run tree = match tree.locate route with
      | .error error => (.error error, tree)
      | .ok place => match tree.node? place with
        | some _ => (.error .alreadyExists, tree)
        | none => (.ok (), tree.insert place .directory) := by
  have looked : (look (·.locate route)).run tree = (tree.locate route, tree) := rfl
  have seen : (get : FileAction FileTree).run tree = (.ok tree, tree) := rfl
  rw [makeDirectory, run_bind, looked]
  cases tree.locate route with
  | error error => rfl
  | ok place =>
      dsimp only
      rw [run_bind, seen]
      dsimp only
      cases tree.node? place <;> rfl

theorem makeDirectory_grows (route : Route) : Grows [route] (makeDirectory route) := by
  intro tree
  rw [makeDirectory_run]
  split
  · exact Grown.refl
  · rename_i place found
    obtain rfl := eq_place_of_locate found
    split
    · exact Grown.refl
    · rename_i free
      exact grown_insert free

theorem ensureDirectory_grows (route : Route) : Grows [route] (ensureDirectory route) := by
  refine (makeDirectory_grows route).tryCatch fun error tree => ?_
  rw [run_bind]
  change Grown [route] tree (Prod.snd (ExceptT.run
    (if tree.isDirectory route then pure () else throw error : FileAction Unit) tree))
  split
  · exact Grown.refl
  · exact Grown.refl

theorem ensureBelow_grows (route : Route) (above : List Route) :
    Grows (route :: above) (ensureBelow route above) := by
  induction above generalizing route with
  | nil => exact ensureDirectory_grows route
  | cons next above ih =>
      have itself : Grows (route :: next :: above) (ensureDirectory route) :=
        (ensureDirectory_grows route).mono (by simp)
      refine itself.tryCatch fun error => ?_
      cases error with
      | notFound => exact ((ih next).mono (List.subset_cons_self _ _)).bind fun _ => itself
      | notADirectory | isADirectory | alreadyExists => exact Grows.throw _

/-- The directories that are made for a file are above it. -/
theorem makeDirectories_parent_grows (route : Route) :
    Grows (Route.above route.steps) (makeDirectories route.parent) := by
  have grows := ensureBelow_grows route.parent (Route.above route.parent.steps)
  by_cases given : route.steps = []
  · intro tree place
    obtain same | ⟨free, -, way, member, means⟩ := grows tree place
    · exact Or.inl same
    -- the top is no free place
    · have top : way = { steps := [] } := by simpa [Route.parent, given, Route.above] using member
      rw [← means, top] at free
      cases free
  · refine grows.mono fun way member => Route.mem_above.mpr ?_
    have some := List.length_pos_iff.mpr given
    obtain rfl | further := List.mem_cons.mp member
    · exact ⟨route.steps.length - 1, by omega, by rw [Route.parent, List.dropLast_eq_take]⟩
    · obtain ⟨n, within, rfl⟩ := Route.mem_above.mp further
      rw [Route.parent, List.length_dropLast] at within
      refine ⟨n, by omega, ?_⟩
      rw [Route.parent, List.dropLast_eq_take, List.take_take, Nat.min_eq_left (by omega)]

/-! ### Opening and removing files -/

theorem openFile_run (route : Route) (tree : FileTree) :
    (openFile route).run tree = match tree.locate route with
      | .error error => (.error error, tree)
      | .ok place => match tree.node? place, route.ending with
        | some .directory, _ | _, .slash => (.error .isADirectory, tree)
        | some (.file id _), _ => (.ok id, tree)
        | none, _ => (.ok ⟨tree.nextFile⟩, tree.insertFile place) := by
  have looked : (look (·.locate route)).run tree = (tree.locate route, tree) := rfl
  have seen : (get : FileAction FileTree).run tree = (.ok tree, tree) := rfl
  rw [openFile, run_bind, looked]
  cases tree.locate route with
  | error error => rfl
  | ok place =>
      dsimp only
      rw [run_bind, seen]
      dsimp only
      rcases tree.node? place with _ | _ | _ <;> cases route.ending <;> rfl

/-- A tree with a new file at a free place keeps its directories. -/
theorem directory_insertFile (free : tree.node? place = none) (place' : List String)
    (directory : tree.node? place' = some .directory) :
    (tree.insertFile place).node? place' = some .directory := by
  refine (node?_insert free _ place').trans ?_
  rw [if_neg, directory]
  rintro rfl
  rw [free] at directory
  cases directory

/-- A file that is opened through a route is the one at the place of the route, or a new one if the
place is free. -/
theorem lookup_of_openFile {route : Route} {id : FileId} {after : FileTree}
    (opened : (openFile route).run tree = (.ok id, after)) :
    route.Direct ∧ after.lookup route =
      .ok (route.place, .file id ((tree.content? route.place).getD "")) := by
  rw [openFile_run] at opened
  split at opened
  · cases opened
  · rename_i place found
    obtain rfl := eq_place_of_locate found
    rw [content?]
    split at opened
    · cases opened
    · cases opened
    · rename_i id text there plain
      cases opened
      refine ⟨direct_of_locate found (by simp [there]), lookup_eq_file_iff.mpr ⟨found, ?_⟩⟩
      exact ⟨by rw [there]; rfl, by simpa using plain⟩
    · rename_i free plain
      cases opened
      refine ⟨direct_of_locate found (by simp [free]), lookup_eq_file_iff.mpr ?_⟩
      refine ⟨locate_of_directories (directory_insertFile free) found, ?_, by simpa using plain⟩
      rw [free]
      exact (node?_insert free _ _).trans (if_pos rfl)

theorem eq_of_openFile {route : Route} {error : FileError} {after : FileTree}
    (failed : (openFile route).run tree = (.error error, after)) : after = tree := by
  rw [openFile_run] at failed
  split at failed
  · cases failed
    rfl
  · split at failed <;> cases failed <;> rfl

theorem removeFile_erases (route : Route) (tree : FileTree) :
    ((removeFile route).run tree).2 = tree ∨
      ∃ place, ((removeFile route).run tree).2 = tree.erase place := by
  have looked : (look (·.lookup route)).run tree = (tree.lookup route, tree) := rfl
  rw [removeFile, run_bind, looked]
  rcases tree.lookup route with error | ⟨place, _ | _⟩
  · exact Or.inl rfl
  · exact Or.inl rfl
  · exact Or.inr ⟨place, rfl⟩

theorem removeDirectory_erases (route : Route) (tree : FileTree) :
    ((removeDirectory route).run tree).2 = tree ∨
      ∃ place, ((removeDirectory route).run tree).2 = tree.erase place := by
  have looked : (look (·.lookup route)).run tree = (tree.lookup route, tree) := rfl
  rw [removeDirectory, run_bind, looked]
  rcases tree.lookup route with error | ⟨place, _ | _⟩
  · exact Or.inl rfl
  · exact Or.inr ⟨place, rfl⟩
  · exact Or.inl rfl

end FileAction
end SceneEdit
