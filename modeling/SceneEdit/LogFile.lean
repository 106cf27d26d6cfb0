import SceneEdit.FileTree.Basic

/-!
# The log file

A log file comes into being with the first write, together with the directories above it. It stays
open, and if its route leads nowhere in the meantime the next write creates it anew. A write that
fails leaves the log as it was, but keeps the directories that were made for it.

Writes go through writers, of which a log makes as many as are asked for. Each has the route of the
log, but the file that is held open is one for all of them: it is kept by the log.
-/

namespace SceneEdit

/-- Where the log goes, and the file that is held open. -/
structure LogFile where
  route : Route
  handle : Option FileId := none
  deriving DecidableEq, Repr

/-- What writes to a log. -/
structure LogWriter where
  route : Route
  deriving DecidableEq, Repr

namespace LogWriter

/-- Opens the file, which is created with the directories above it if need be. -/
def openAnew (writer : LogWriter) : FileAction FileId := do
  FileAction.makeDirectories writer.route.parent
  FileAction.openFile writer.route

/-- The file to write to: the one that the log holds open as long as the route leads somewhere, else
one that is opened anew. -/
def current (writer : LogWriter) (log : LogFile) : FileAction FileId := do
  match log.handle with
  | some handle => if (← get).contains writer.route then return handle else writer.openAnew
  | none => writer.openAnew

/-- Writes a text: the number of bytes written, and the log with its file held open. -/
def write (writer : LogWriter) (log : LogFile) (text : String) : FileAction (Nat × LogFile) := do
  let handle ← writer.current log
  modify (·.append handle text)
  return (text.utf8ByteSize, { log with handle := some handle })

/-- Lets go of a file that has been removed. -/
def flush (writer : LogWriter) (log : LogFile) (tree : FileTree) : LogFile :=
  if tree.contains writer.route then log else { log with handle := none }

end LogWriter

namespace LogFile

/-- A writer of the log. -/
def writer (log : LogFile) : LogWriter := ⟨log.route⟩

/-- Writes a text through a writer made for it. -/
def write (log : LogFile) (text : String) : FileAction (Nat × LogFile) := log.writer.write log text

/-- Flushes a writer made for it. -/
def flush (log : LogFile) (tree : FileTree) : LogFile := log.writer.flush log tree

end LogFile
end SceneEdit
