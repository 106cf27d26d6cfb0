import SceneEdit.Request.Decode

/-!
# Forms

A form describes a record: its fields with their names and readings. Filling it in from an object
goes through the entries in order, so that the first bad entry is the one reported, and then asks
for what is missing. A form may take in the fields of another one; those are looked at after all of
its own. A form that takes in no other one can also be filled in from an array, by position.
-/

namespace SceneEdit

/-- A field: its name and aliases, whether it must be there, and which tokens it accepts. -/
structure FieldRule where
  name : String
  aliases : List String := []
  required : Bool := false
  check : Decoder Unit

namespace FieldRule

def answersTo (rule : FieldRule) (key : String) : Bool :=
  rule.name = key || rule.aliases.contains key

/-- The token an object gives a field. -/
def find? (rule : FieldRule) (entries : Entries) : Option Token :=
  (entries.find? fun entry => rule.answersTo entry.1).map Prod.snd

end FieldRule

/-- The fields of a record, those it takes in from others, and how they make up the record. -/
structure Form (α : Type) where
  own : List FieldRule
  inner : List (List FieldRule)
  build : Entries → Except DecodeError α

namespace Form

variable {α β : Type}

instance : Applicative Form where
  pure a := ⟨[], [], fun _ => .ok a⟩
  seq f x :=
    let y := x ()
    ⟨f.own ++ y.own, f.inner ++ y.inner,
      fun entries => do return (← f.build entries) (← y.build entries)⟩

/-- A field that must be there. -/
def required (name : String) (decode : Decoder α) (aliases : List String := []) : Form α :=
  let rule : FieldRule :=
    { name, aliases, required := true, check := fun t => (decode t).map fun _ => () }
  ⟨[rule], [], fun entries =>
    match rule.find? entries with
    | some token => decode token
    | none => .error (.missingField name)⟩

/-- A field with a value for its absence. -/
def optional (name : String) (decode : Decoder α) (absent : α) : Form α :=
  let rule : FieldRule := { name, check := fun t => (decode t).map fun _ => () }
  ⟨[rule], [], fun entries =>
    match rule.find? entries with
    | some token => decode token
    | none => .ok absent⟩

/-- The fields of another form among those of this one. -/
def including (form : Form α) : Form α := ⟨[], [form.own], form.build⟩

/-- Checks the entries that are fields, in order; `seen` are the fields met before. -/
def scan (rules : List FieldRule) : (seen : List String) → Entries → Except DecodeError Unit
  | _, [] => .ok ()
  | seen, (key, token) :: rest =>
    match rules.find? fun rule => rule.answersTo key with
    | none => scan rules seen rest
    | some rule =>
      if seen.contains rule.name then .error (.duplicateField rule.name)
      else do
        rule.check token
        scan rules (rule.name :: seen) rest

/-- The first field that must be there and is not. -/
def missing? (rules : List FieldRule) (entries : Entries) : Option FieldRule :=
  rules.find? fun rule => rule.required && (rule.find? entries).isNone

/-- Checks the entries against the fields. -/
def verify (rules : List FieldRule) (entries : Entries) : Except DecodeError Unit := do
  scan rules [] entries
  match missing? rules entries with
  | some rule => .error (.missingField rule.name)
  | none => .ok ()

/-- Fills in a form from an object. -/
def ofEntries (form : Form α) (entries : Entries) : Except DecodeError α := do
  verify form.own entries
  form.inner.forM fun rules => verify rules entries
  form.build entries

/-- Fills in a form from values by position. -/
def ofItems (form : Form α) (record : String) (items : List Token) : Except DecodeError α := do
  let entries := (form.own.map FieldRule.name).zip items
  scan form.own [] entries
  match missing? form.own entries with
  | some _ =>
    .error (.invalidLength items.length s!"struct {record} with {form.own.length} elements")
  | none =>
    let result ← form.build entries
    if form.own.length < items.length then
      .error (.invalidLength items.length "fewer elements in array")
    else .ok result

/-- The reading of a record that a form describes. -/
def decoder (form : Form α) (record : String) : Decoder α
  | .obj entries => form.ofEntries entries
  | .arr items =>
    if form.inner.isEmpty then form.ofItems record items
    else Decoder.mismatch s!"struct {record}" (.arr items)
  | other => Decoder.mismatch s!"struct {record}" other

end Form
end SceneEdit
