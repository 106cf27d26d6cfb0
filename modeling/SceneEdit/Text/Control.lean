/-!
# Control characters

A log is read on terminals, which act on some control characters. In a log these stand as their
numbers, so that no text written by a user can move the cursor or change a colour. All other
characters, tabs and line breaks among them, stand for themselves.
-/

namespace SceneEdit.Text

/-- The hexadecimal digits of a number, lowercase. -/
def hexText (n : Nat) : String := String.ofList (Nat.toDigits 16 n)

/-- A character by its number in braces. -/
def bracedNumber (c : Char) : String := "\\u\x7b" ++ hexText c.toNat ++ "\x7d"

/-- A character below 256 by its number in two digits. -/
def pairNumber (c : Char) : String :=
  "\\x" ++ (if c.toNat < 0x10 then "0" else "") ++ hexText c.toNat

/-- The control characters of ASCII that terminals act on: bell, backspace, form feed, escape and
delete. -/
def isTerminalControl (c : Char) : Bool :=
  let code := c.toNat
  code = 0x07 || code = 0x08 || code = 0x0c || code = 0x1b || code = 0x7f

/-- The second block of control characters, which stands above ASCII. -/
def isUpperControl (c : Char) : Bool := 0x80 ≤ c.toNat && c.toNat ≤ 0x9f

/-- One character as a log shows it. -/
def harmlessChar (c : Char) : String :=
  if isTerminalControl c then pairNumber c
  else if isUpperControl c then bracedNumber c
  else c.toString

/-- A text as a log shows it. -/
def harmless (cs : List Char) : String := String.join (cs.map harmlessChar)

end SceneEdit.Text
