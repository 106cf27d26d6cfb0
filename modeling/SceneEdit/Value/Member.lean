import SceneEdit.Log
import SceneEdit.Suggestion
import SceneEdit.Value.Basic

/-!
# Finding members by name

Names match members ignoring the case of ASCII letters. If a member has the exact name, it wins,
properties before fields before hidden fields and then in table order; otherwise a name that
matches several members is ambiguous.
-/

namespace SceneEdit

/-- Why a name is not the name of one member. -/
inductive LookupFailure where
  | missing (suggestions : List String)
  | ambiguous (candidates : List String)
  deriving DecidableEq, Repr

namespace LookupFailure

def reason (name : String) : LookupFailure → String
  | missing suggestions =>
    Suggestion.withSuggestions s!"no member named '{name}'" suggestions
  | ambiguous candidates =>
    let listed := String.intercalate ", " candidates
    s!"'{name}' matches {listed} ignoring case; use the exact name"

end LookupFailure

namespace Table

variable {ν : Type}

/-- The members whose names match ignoring case, with their places. -/
def matching (table : Table ν) (name : String) : List (Slot ν × Nat) :=
  table.members.zipIdx.filter fun (member, _) => Text.sameIgnoringCase member.name name

/-- The first of some members by visibility, then by place. -/
def leading? (members : List (Slot ν × Nat)) : Option (Slot ν × Nat) :=
  [MemberKind.property, .field, .hidden].findSome? fun kind =>
    members.find? fun (member, _) => member.kind = kind

/-- The place of the member a name stands for. A collision with members that differ only in case
is told, though the exact name settles it. -/
def find (table : Table ν) (name : String) : Traced LookupFailure Nat :=
  let found := table.matching name
  match leading? (found.filter fun (member, _) => member.name = name) with
  | some (exact, index) => do
    if 1 < found.length then
      let collision := s!"collides with {found.length - 1} other slot(s) ignoring case"
      let choice := s!"using the {exact.kind.name} with the exact name"
      .tell .warn .members s!"member '{name}' on {table.typeName.text} {collision}; {choice}"
    return index
  | none =>
    match found with
    | [] => throw (.missing (Suggestion.closest name (table.members.map (·.name))))
    | [(_, index)] => return index
    | several => throw (.ambiguous (several.map (·.1.name)))

end Table
end SceneEdit
