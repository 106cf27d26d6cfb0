import SceneEdit.Token.Basic
import SceneEdit.Text.Quoted

/-!
# The text of a token

The compact form: no blanks between parts, and only quotes, backslashes and controls escaped.
-/

namespace SceneEdit.Token

/-- One character of a string token. -/
def charText (c : Char) : String :=
  if c = '"' then "\\\""
  else if c = '\\' then "\\\\"
  else if c = '\n' then "\\n"
  else if c = '\r' then "\\r"
  else if c = '\t' then "\\t"
  else if c.toNat = 8 then "\\b"
  else if c.toNat = 12 then "\\f"
  else if c.toNat < 0x10 then "\\u000" ++ Text.hexText c.toNat
  else if c.toNat < 0x20 then "\\u00" ++ Text.hexText c.toNat
  else c.toString

def stringText (s : String) : String := "\"" ++ String.join (s.toList.map charText) ++ "\""

mutual

/-- The compact text of a token. -/
def text : Token → String
  | null => "null"
  | bool true => "true"
  | bool false => "false"
  | num n => n.text
  | str s => stringText s
  | arr items => "[" ++ String.intercalate "," (itemTexts items) ++ "]"
  | obj entries => "\x7b" ++ String.intercalate "," (entryTexts entries) ++ "\x7d"

def itemTexts : List Token → List String
  | [] => []
  | item :: rest => text item :: itemTexts rest

def entryTexts : List (String × Token) → List String
  | [] => []
  | (key, value) :: rest => (stringText key ++ ":" ++ text value) :: entryTexts rest

end
end SceneEdit.Token
