import SceneEdit.Token.Basic
import SceneEdit.Value.Basic

/-!
# Values as tokens

Reading a value gives the token that, written back, stands for the same value. Objects become
objects of their members in order; hidden members are left out unless asked for, and a material
adds its shader channels under a key of their own.
-/

namespace SceneEdit

/-- The key of the shader channels of a material. -/
def shaderKey : String := "shaderProperties"

/-- The entries of an object: those of its members, then those of its shader. -/
def joinEntries (members : Entries) : Option Entries → Entries
  | none => Entries.ofPairs members
  | some channels => (Entries.ofPairs members).insert shaderKey (.obj (Entries.ofPairs channels))

namespace Value

mutual

/-- The token of a value; hidden members are shown if `hidden`. -/
def toToken (hidden : Bool) : Value → Token
  | null => .null
  | bool b => .bool b
  | int i => .int i
  | float x => .float x
  | string s => .str s
  | enum label => .str label
  | vector v => .arr (v.components.map Token.component)
  | resource handle => .str handle.path
  | list items => .arr (itemTokens hidden items)
  | object table => .obj (tableEntries hidden table)

def itemTokens (hidden : Bool) : List Value → List Token
  | [] => []
  | item :: rest => toToken hidden item :: itemTokens hidden rest

/-- The entries of an object. -/
def tableEntries (hidden : Bool) : Table Value → Entries
  | ⟨_, members, none⟩ => joinEntries (memberPairs hidden members) none
  | ⟨_, members, some ⟨_, channels⟩⟩ =>
    joinEntries (memberPairs hidden members) (some (channelPairs hidden channels))

def memberPairs (hidden : Bool) : List (Slot Value) → Entries
  | [] => []
  | ⟨name, kind, _, _, value⟩ :: rest =>
    if hidden || kind ≠ .hidden then (name, toToken hidden value) :: memberPairs hidden rest
    else memberPairs hidden rest

def channelPairs (hidden : Bool) : List (Channel Value) → Entries
  | [] => []
  | ⟨name, _, value⟩ :: rest => (name, toToken hidden value) :: channelPairs hidden rest

end
end Value
end SceneEdit
