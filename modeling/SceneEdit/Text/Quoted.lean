import SceneEdit.Text.CaseTable
import SceneEdit.Text.Control
import SceneEdit.Text.HiddenTable

/-!
# Quoted text

A text between double quotes, as decoding messages show it: quotes, backslashes and the usual
controls are escaped by a letter, other characters without a shape of their own by their number.
-/

namespace SceneEdit.Text

/-- One character of a quoted text. -/
def quotedChar (c : Char) : String :=
  if c = '"' then "\\\""
  else if c = '\\' then "\\\\"
  else if c = '\t' then "\\t"
  else if c = '\r' then "\\r"
  else if c = '\n' then "\\n"
  else if c.toNat = 0 then "\\0"
  else if c.toNat < 0x20 || inRanges hiddenRanges c.toNat then bracedNumber c
  else c.toString

/-- A text between double quotes. -/
def quoted (s : String) : String := "\"" ++ String.join (s.toList.map quotedChar) ++ "\""

end SceneEdit.Text
