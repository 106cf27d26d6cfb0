import SceneEdit.Log
import SceneEdit.Text.Blank
import SceneEdit.Token.Printer
import SceneEdit.Types.Catalog

/-!
# Converting tokens to assets

An asset is named by its path, or by its bare name if that is unique. A path that leads to no asset
is no error: the slot is left empty, and the log says so.
-/

namespace SceneEdit.Coercion

/-- The key of the path in an object token. -/
def pathKey : String := "path"

/-- Slashes only forward, no `file://` before, no slash at the front. -/
def normalizePath (path : String) : String :=
  let unified := Text.forwardSlashes (Text.trimmed path.toList)
  let scheme := "file://".toList
  let bare := if scheme.isPrefixOf unified then unified.drop scheme.length else unified
  String.ofList (bare.dropWhile (· = '/'))

/-- The path a token gives. -/
def assetPath : Token → Except String String
  | .str s => .ok s
  | .obj entries =>
    match Entries.get? entries pathKey with
    | some (.str s) => .ok s
    | _ => .error s!"object token needs a string '{pathKey}'"
  | other => .error s!"expected a path, got {other.text}"

/-- The asset of a type at a normalized path, or with it as its name, or nothing. -/
def findAsset (library : Library) (field path : String) (type : TypeName) : Attempt Value := do
  match library.load? path type with
  | some handle =>
    .tell .debug .resources s!"resource '{path}' loaded for '{field}'"
    return .resource handle
  | none =>
    match if path.toList.contains '/' then [] else library.named type path with
    | [handle] => return .resource handle
    | [] =>
      .tell .warn .resources
        s!"resource '{path}' ({type.text}) not found; leaving '{field}' empty"
      return .null
    | several =>
      let matching := s!"resource name '{path}' matches {several.length} {type.text} assets"
      .tell .warn .resources s!"{matching}; leaving '{field}' empty"
      return .null

/-- The asset a token names; a blank path empties the slot. -/
def toResource (library : Library) (field : String) (token : Token) (type : TypeName) :
    Attempt Value :=
  match assetPath token with
  | .error reason => fail (.coercion field (ValueType.resource type).display reason)
  | .ok raw =>
    let path := normalizePath raw
    if path = "" then pure .null else findAsset library field path type

end SceneEdit.Coercion
