import SceneEdit.LogFile
import SceneEdit.Proofs.FileTree

/-!
# What a log file keeps

A log makes writers, which are written to and flushed in any order, and in between files and
directories are removed behind its back. All writers have the route of the log and share the file
that it holds open, so it does not matter which of them is used. What is held open is the file at
the place of the log, or a file that is no longer anywhere (`Sound.held`): a writer writes only
after its route has been seen to lead somewhere, and nothing but the log's own file is ever put at
its place. This last point is why the route has to be `Direct`: the directories that are made on the
way to a file that can be opened are never at the place of that file.

So at every moment the place of the log holds what was written since it was last found empty, and no
file if nothing was (`Sound.content`).
-/

namespace SceneEdit

/-- The place of a direct route is reserved for a file: nothing else stands there. -/
def FileTree.Reserved (tree : FileTree) (route : Route) (id : FileId) : Prop :=
  route.Direct ∧ ∀ node, tree.node? route.place = some node → ∃ text, node = .file id text

/-! ### Opening and writing -/

namespace LogWriter

variable {writer : LogWriter} {log : LogFile} {tree after : FileTree} {id : FileId}
variable {error : FileError}

theorem openAnew_run (writer : LogWriter) (tree : FileTree) :
    writer.openAnew.run tree = match (FileAction.makeDirectories writer.route.parent).run tree with
      | (.ok _, middle) => (FileAction.openFile writer.route).run middle
      | (.error error, middle) => (.error error, middle) := by
  rw [openAnew, run_bind]
  rcases (FileAction.makeDirectories writer.route.parent).run tree with ⟨_ | _, middle⟩ <;> rfl

/-- Opening anew leads to what has been at the place of the log before, or to an empty file. -/
theorem lookup_of_openAnew (opened : writer.openAnew.run tree = (.ok id, after)) :
    writer.route.Direct ∧ after.lookup writer.route =
      .ok (writer.route.place, .file id ((tree.content? writer.route.place).getD "")) := by
  rw [openAnew_run] at opened
  have grown := FileAction.makeDirectories_parent_grows writer.route tree
  rcases made : (FileAction.makeDirectories writer.route.parent).run tree with ⟨error | _, middle⟩
  · rw [made] at opened
    cases opened
  · rw [made] at opened grown
    rw [← grown.content?_eq]
    exact FileAction.lookup_of_openFile opened

theorem grown_of_openAnew (failed : writer.openAnew.run tree = (.error error, after)) :
    FileTree.Grown (Route.above writer.route.steps) tree after := by
  rw [openAnew_run] at failed
  have grown := FileAction.makeDirectories_parent_grows writer.route tree
  rcases made : (FileAction.makeDirectories writer.route.parent).run tree with ⟨error | _, middle⟩
  · rw [made] at failed grown
    cases failed
    exact grown
  · rw [made] at failed grown
    rw [FileAction.eq_of_openFile failed]
    exact grown

theorem current_run (writer : LogWriter) (log : LogFile) (tree : FileTree) :
    (writer.current log).run tree = match log.handle with
      | some id => if tree.contains writer.route then (.ok id, tree) else writer.openAnew.run tree
      | none => writer.openAnew.run tree := by
  rw [current]
  cases log.handle with
  | none => rfl
  | some id =>
      have seen : (get : FileAction FileTree).run tree = (.ok tree, tree) := rfl
      dsimp only
      rw [run_bind, seen]
      dsimp only
      split <;> rfl

theorem write_run (writer : LogWriter) (log : LogFile) (text : String) (tree : FileTree) :
    (writer.write log text).run tree = match (writer.current log).run tree with
      | (.ok id, middle) =>
        (.ok (text.utf8ByteSize, { log with handle := some id }), middle.append id text)
      | (.error error, middle) => (.error error, middle) := by
  rw [write, run_bind]
  rcases (writer.current log).run tree with ⟨_ | _, middle⟩ <;> rfl

/-- What is let go of need not be held. -/
theorem handle_of_flush (held : (writer.flush log tree).handle = some id) :
    log.handle = some id := by
  rw [flush] at held
  split at held
  · exact held
  · cases held

theorem route_flush : (writer.flush log tree).route = log.route := by
  rw [flush]
  split <;> rfl

/-- The file to write to is at the place of the log, with the text that has been there before. -/
theorem lookup_of_current
    (held : ∀ id, log.handle = some id → tree.Reserved writer.route id)
    (given : (writer.current log).run tree = (.ok id, after)) :
    writer.route.Direct ∧ after.lookup writer.route =
      .ok (writer.route.place, .file id ((tree.content? writer.route.place).getD "")) := by
  rw [current_run] at given
  split at given
  · rename_i open' handle
    split at given
    · rename_i leads
      cases given
      obtain ⟨direct, file⟩ := held _ handle
      refine ⟨direct, ?_⟩
      rw [FileTree.contains] at leads
      cases found : tree.lookup writer.route with
      | error error =>
          rw [found] at leads
          cases leads
      | ok shown =>
          obtain ⟨place, node⟩ := shown
          obtain ⟨rfl, there⟩ := FileTree.mem_of_lookup found
          obtain ⟨text, rfl⟩ := file node there
          rw [FileTree.content?_of_lookup found]
          rfl
    · exact lookup_of_openAnew given
  · exact lookup_of_openAnew given

theorem grown_of_current (failed : (writer.current log).run tree = (.error error, after)) :
    FileTree.Grown (Route.above writer.route.steps) tree after := by
  rw [current_run] at failed
  split at failed
  · split at failed
    · cases failed
    · exact grown_of_openAnew failed
  · exact grown_of_openAnew failed

end LogWriter

/-! ### Acts -/

namespace LogFile

/-- What is done with a log and its writers, and what is done to the tree by others. -/
inductive Act where
  | makeWriter
  | write (writer : Nat) (text : String)
  | flush (writer : Nat)
  | removeFile (route : Route)
  | removeDirectory (route : Route)

/-- A log, the writers it has made, and the tree that its file is in. -/
structure State where
  log : LogFile
  writers : List LogWriter
  tree : FileTree

namespace State

/-- A log that holds no file and has made no writer. -/
def start (route : Route) (tree : FileTree) : State := ⟨{ route }, [], tree⟩

/-- Whether a write through a writer succeeds, and the state it leaves. -/
def writeThrough (state : State) (writer : LogWriter) (text : String) :
    Except FileError Unit × State :=
  match (writer.write state.log text).run state.tree with
  | (.ok (_, log), tree) => (.ok (), { state with log, tree })
  | (.error error, tree) => (.error error, { state with tree })

/-- Whether an act succeeds, and the state it leaves. Writers go by their number; there is no act
through a writer that the log has not made. -/
def step (state : State) : Act → Option (Except FileError Unit × State)
  | .makeWriter => some (.ok (), { state with writers := state.writers ++ [state.log.writer] })
  | .write number text => state.writers[number]?.map fun writer => state.writeThrough writer text
  | .flush number => state.writers[number]?.map fun writer =>
      (.ok (), { state with log := writer.flush state.log state.tree })
  | .removeFile route =>
    let (result, tree) := (FileAction.removeFile route).run state.tree
    some (result, { state with tree })
  | .removeDirectory route =>
    let (result, tree) := (FileAction.removeDirectory route).run state.tree
    some (result, { state with tree })

/-- The text of the file at the place of the log. -/
def content? (state : State) : Option String := state.tree.content? state.log.route.place

/-- What has been written since the last deletion, after one act more: a write that succeeds adds
its text, and a removal that leaves no file at the place of the log is a deletion. -/
def keep (texts : List String) (act : Act) (result : Except FileError Unit) (after : State) :
    List String :=
  match act, result with
  | .write _ text, .ok _ => texts ++ [text]
  | .write .., .error _ | .flush _, _ | .makeWriter, _ => texts
  | .removeFile _, _ | .removeDirectory _, _ => if after.content?.isSome then texts else []

/-- The state after acts, and what has been written since the last deletion. -/
def run : State → List String → List Act → Option (State × List String)
  | state, texts, [] => some (state, texts)
  | state, texts, act :: rest => do
    let (result, after) ← state.step act
    run after (keep texts act result after) rest

/-! ### What holds at every moment -/

/-- The log goes along its route and so do its writers; its place holds what was written, and no
file if nothing was. -/
structure Sound (route : Route) (state : State) (texts : List String) : Prop where
  log : state.log.route = route
  writers : ∀ writer ∈ state.writers, writer.route = route
  content : state.tree.content? route.place = if texts = [] then none else some (String.join texts)
  held : ∀ id, state.log.handle = some id → state.tree.Reserved route id

variable {route : Route} {state next : State} {texts : List String} {text : String}
variable {writer : LogWriter} {error : FileError}

theorem Sound.start {tree : FileTree} (absent : tree.content? route.place = none) :
    Sound route (start route tree) [] where
  log := rfl
  writers := by rintro writer ⟨⟩
  content := absent
  held := by rintro id ⟨⟩

theorem Sound.getD_content (sound : Sound route state texts) :
    (state.tree.content? route.place).getD "" = String.join texts := by
  rw [sound.content]
  split
  · rename_i nothing
    rw [nothing]
    rfl
  · rfl

/-- What a write that succeeds leaves: the log holds its file open, and its route leads to all that
has been written. -/
theorem Sound.writeThrough_ok (sound : Sound route state texts)
    (made : writer ∈ state.writers) (written : state.writeThrough writer text = (.ok (), next)) :
    next.writers = state.writers ∧ ∃ id, next.log = { route, handle := some id } ∧ route.Direct ∧
      next.tree.lookup route = .ok (route.place, .file id (String.join (texts ++ [text]))) := by
  obtain rfl := sound.writers writer made
  rw [writeThrough, LogWriter.write_run] at written
  rcases given : (writer.current state.log).run state.tree with ⟨error | id, middle⟩
  · rw [given] at written
    cases written
  · rw [given] at written
    cases written
    obtain ⟨direct, found⟩ := LogWriter.lookup_of_current sound.held given
    refine ⟨rfl, id, by rw [sound.log], direct, ?_⟩
    rw [sound.getD_content] at found
    have joined : String.join (texts ++ [text]) = String.join texts ++ text := by simp
    rw [joined]
    exact FileTree.lookup_append text found

/-- A write that fails leaves no more than directories. -/
theorem Sound.writeThrough_error (sound : Sound route state texts) (made : writer ∈ state.writers)
    (failed : state.writeThrough writer text = (.error error, next)) :
    Sound route next texts := by
  obtain rfl := sound.writers writer made
  rw [writeThrough, LogWriter.write_run] at failed
  rcases given : (writer.current state.log).run state.tree with ⟨error | id, middle⟩
  · rw [given] at failed
    cases failed
    have grown := LogWriter.grown_of_current given
    refine { sound with content := (grown.content?_eq _).trans sound.content, held := ?_ }
    intro id handle
    obtain ⟨direct, file⟩ := sound.held id handle
    refine ⟨direct, fun node there => file node ?_⟩
    rw [← grown.node?_eq direct]
    exact there
  · rw [given] at failed
    cases failed

/-- Taking things away leaves the file of a log as it was, or no file. -/
theorem Sound.erase (sound : Sound route state texts) {tree : FileTree}
    (erased : tree = state.tree ∨ ∃ place, tree = state.tree.erase place) :
    Sound route { state with tree }
      (if (content? { state with tree }).isSome then texts else []) := by
  have fewer : tree.node? route.place = state.tree.node? route.place ∨
      tree.node? route.place = none := by
    obtain rfl | ⟨place, rfl⟩ := erased
    · exact Or.inl rfl
    · exact FileTree.node?_erase place _
  have shown : content? { state with tree } = tree.content? route.place := by
    rw [content?, sound.log]
  rw [shown]
  obtain same | gone := fewer
  · have content : tree.content? route.place = state.tree.content? route.place := by
      rw [FileTree.content?, FileTree.content?, same]
    refine { sound with content := ?_, held := fun id handle => ?_ }
    · rw [content, sound.content]
      by_cases nothing : texts = []
      · simp [nothing]
      · simp [nothing]
    · obtain ⟨direct, file⟩ := sound.held id handle
      exact ⟨direct, fun node there => file node (same ▸ there)⟩
  · have content : tree.content? route.place = none := by
      rw [FileTree.content?, gone]
    refine { sound with content := ?_, held := fun id handle => ?_ }
    · simp [content]
    · refine ⟨(sound.held id handle).1, fun node there => ?_⟩
      rw [gone] at there
      cases there

/-- Every act, through whichever writer, keeps account of what has been written since the last
deletion. -/
theorem Sound.step (sound : Sound route state texts) {act : Act} {result : Except FileError Unit}
    (done : state.step act = some (result, next)) :
    Sound route next (keep texts act result next) := by
  cases act with
  | makeWriter =>
      cases done
      refine { sound with writers := ?_ }
      refine List.forall_mem_append.mpr ⟨sound.writers, List.forall_mem_singleton.mpr ?_⟩
      exact sound.log
  | write number text =>
      obtain ⟨writer, known, written⟩ := Option.map_eq_some_iff.mp done
      have made := List.mem_of_getElem? known
      rcases result with error | ⟨⟩
      · exact sound.writeThrough_error made written
      · obtain ⟨others, id, log, direct, found⟩ := sound.writeThrough_ok made written
        refine ⟨congrArg LogFile.route log, others ▸ sound.writers, ?_, fun other held => ?_⟩
        · rw [keep, if_neg (by simp)]
          exact FileTree.content?_of_lookup found
        · refine ⟨direct, fun node there => ?_⟩
          rw [(FileTree.lookup_eq_file_iff.mp found).2.1] at there
          cases there
          rw [log] at held
          cases held
          exact ⟨_, rfl⟩
  | flush number =>
      obtain ⟨writer, known, flushed⟩ := Option.map_eq_some_iff.mp done
      cases flushed
      exact { sound with
        log := LogWriter.route_flush.trans sound.log
        held := fun id held => sound.held id (LogWriter.handle_of_flush held) }
  | removeFile route =>
      cases done
      exact sound.erase (FileAction.removeFile_erases route state.tree)
  | removeDirectory route =>
      cases done
      exact sound.erase (FileAction.removeDirectory_erases route state.tree)

/-- Any acts keep account of what has been written since the last deletion. -/
theorem Sound.run (sound : Sound route state texts) {acts : List Act} {texts' : List String}
    (ran : state.run texts acts = some (next, texts')) : Sound route next texts' := by
  induction acts generalizing state texts with
  | nil =>
      cases ran
      exact sound
  | cons act rest ih =>
      obtain ⟨⟨result, after⟩, done, ran⟩ := Option.bind_eq_some_iff.mp ran
      exact ih (sound.step done) ran

/-- Nothing is written by making writers, flushing and removing. -/
theorem texts_of_no_write {acts : List Act} (silent : ∀ writer text, Act.write writer text ∉ acts)
    (ran : state.run [] acts = some (next, texts)) : texts = [] := by
  induction acts generalizing state with
  | nil =>
      cases ran
      rfl
  | cons act rest ih =>
      obtain ⟨⟨result, after⟩, -, ran⟩ := Option.bind_eq_some_iff.mp ran
      have nothing : keep [] act result after = [] := by
        cases act with
        | write writer text => exact absurd List.mem_cons_self (silent writer text)
        | makeWriter | flush writer => rfl
        | removeFile route | removeDirectory route => exact ite_self []
      dsimp only at ran
      rw [nothing] at ran
      exact ih (fun writer text member => silent writer text (List.mem_cons_of_mem _ member)) ran

/-- A log whose file is not there comes into being with the first write. Whatever is written and
flushed through any number of writers that it makes, and whatever is removed, in any order: after
every write that succeeds, the file of the log is where its route leads, and has the texts that were
written since the last deletion, each once and in their order. -/
theorem no_write_lost {tree : FileTree} (absent : tree.content? route.place = none)
    {acts : List Act} (ran : (start route tree).run [] acts = some (state, texts)) :
    ((∀ writer text, Act.write writer text ∉ acts) → state.tree.content? route.place = none) ∧
    ∀ writer text next, state.step (.write writer text) = some (.ok (), next) →
      next.tree.read route = .ok (String.join (texts ++ [text])) := by
  have sound := (Sound.start absent).run ran
  refine ⟨fun silent => ?_, fun number text next done => ?_⟩
  · rw [sound.content, texts_of_no_write silent ran, if_pos rfl]
  · obtain ⟨writer, known, written⟩ := Option.map_eq_some_iff.mp done
    obtain ⟨-, id, -, -, found⟩ :=
      sound.writeThrough_ok (List.mem_of_getElem? known) written
    exact FileTree.read_of_lookup found

/-- Two writers of a log in a directory that is removed while the log holds its file: what one of
them writes anew, the other one goes on with. -/
theorem no_write_lost_of_removed_directory :
    let route : Route := ⟨[.down "logs", .down "scene.log"], .plain⟩
    let acts : List Act := [.makeWriter, .makeWriter, .write 0 "one",
      .removeDirectory ⟨[.down "logs"], .plain⟩, .write 1 "two", .flush 0]
    ∃ state, (start route {}).run [] acts = some (state, ["two"]) ∧
      ∃ next, state.step (.write 0 "three") = some (.ok (), next) ∧
        next.tree.read route = .ok "twothree" := by
  intro route acts
  have texts : ((start route {}).run [] acts).map Prod.snd = some ["two"] := by decide +kernel
  obtain ⟨⟨state, _⟩, ran, rfl⟩ := Option.map_eq_some_iff.mp texts
  have succeeds : (((start route {}).run [] acts).bind fun ran =>
      (ran.1.step (.write 0 "three")).map fun outcome => outcome.1.isOk) = some true := by
    decide +kernel
  rw [ran, Option.bind_some] at succeeds
  obtain ⟨⟨result, next⟩, written, ok⟩ := Option.map_eq_some_iff.mp succeeds
  cases result with
  | error error => cases ok
  | ok done => exact ⟨state, ran, next, written, (no_write_lost rfl ran).2 0 "three" next written⟩

end State
end LogFile
end SceneEdit
