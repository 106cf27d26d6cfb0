/-!
# Errors

Every failure a request can meet, its kind, and the one place where it is put into words. A
`Report` is an error with the details attached to it on its way out, the latest first.
-/

namespace SceneEdit

/-- The kinds of failure told apart in responses. -/
inductive ErrorKind where
  | invalidArgument
  | notFound
  | ambiguous
  | coercion
  | path
  | structuralConflict
  | hostOperationFailed
  deriving DecidableEq, Repr

namespace ErrorKind

def name : ErrorKind → String
  | invalidArgument => "InvalidArgument"
  | notFound => "NotFound"
  | ambiguous => "Ambiguous"
  | coercion => "CoercionError"
  | path => "PathError"
  | structuralConflict => "StructuralConflict"
  | hostOperationFailed => "HostOperationFailed"

end ErrorKind

/-- A failure and what is known about it. -/
inductive Error where
  /-- Malformed or missing input. -/
  | invalidArgument (text : String)
  /-- An entity, capability, layer or type that is not there. -/
  | notFound (text : String)
  /-- A name that fits several candidates where one is required. -/
  | ambiguous (text : String) (candidates : List String)
  /-- A token that does not convert to the type of a field. -/
  | coercion (field target reason : String)
  /-- A member path that is malformed or leads nowhere. -/
  | path (text reason : String)
  /-- A request that would corrupt the hierarchy. -/
  | structuralConflict (text : String)
  /-- A change that the scene refused. -/
  | hostOperationFailed (text : String)
  deriving DecidableEq, Repr

namespace Error

def kind : Error → ErrorKind
  | invalidArgument _ => .invalidArgument
  | notFound _ => .notFound
  | ambiguous .. => .ambiguous
  | coercion .. => .coercion
  | path .. => .path
  | structuralConflict _ => .structuralConflict
  | hostOperationFailed _ => .hostOperationFailed

def message : Error → String
  | invalidArgument text => s!"Invalid argument: {text}"
  | notFound text => s!"Not found: {text}"
  | ambiguous text _ => s!"Ambiguous: {text}"
  | coercion field target reason => s!"Cannot convert value for '{field}' to {target}: {reason}"
  | path text reason => s!"Invalid path '{text}': {reason}"
  | structuralConflict text => s!"Structural conflict: {text}"
  | hostOperationFailed text => s!"Host operation failed: {text}"

def invalid (what detail : String) : Error := invalidArgument s!"Invalid {what}: {detail}"

def missing (what : String) : Error := invalidArgument s!"Missing {what}"

def cannot (action reason : String) : Error := structuralConflict s!"Cannot {action}: {reason}"

def absent (what name : String) : Error := notFound s!"{what} '{name}' not found"

def refused (operation reason : String) : Error := hostOperationFailed s!"{operation}: {reason}"

end Error

/-- An error with the details attached to it, the latest first. -/
structure Report where
  error : Error
  details : List String := []
  deriving DecidableEq, Repr

namespace Report

def attach (report : Report) (detail : String) : Report :=
  { report with details := detail :: report.details }

@[simp] theorem attach_error (report : Report) (detail : String) :
    (report.attach detail).error = report.error := rfl

end Report
end SceneEdit
