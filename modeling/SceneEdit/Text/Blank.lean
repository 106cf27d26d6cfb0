/-!
# Blanks and lines

Which characters count as white space, how a text is trimmed, and where its first line ends. All of
it works on lists of characters; the versions on strings only convert.
-/

namespace SceneEdit.Text

/-- White space as the Unicode property of that name has it: 25 code points. -/
def isBlank (c : Char) : Bool :=
  let code := c.toNat
  (9 ≤ code && code ≤ 13) || code = 0x20 || code = 0x85 || code = 0xa0 || code = 0x1680 ||
    (0x2000 ≤ code && code ≤ 0x200a) || code = 0x2028 || code = 0x2029 || code = 0x202f ||
    code = 0x205f || code = 0x3000

/-- The characters without those at either end that satisfy `p`. -/
def strip (p : Char → Bool) (cs : List Char) : List Char :=
  ((cs.dropWhile p).reverse.dropWhile p).reverse

/-- The characters without white space at either end. -/
def trimmed (cs : List Char) : List Char := strip isBlank cs

/-- A text without white space at either end. -/
def trim (s : String) : String := String.ofList (trimmed s.toList)

/-- The characters of the first line. A line ends at a line feed or with the text, and a carriage
return just before that belongs to the end; elsewhere a carriage return is a character as any. -/
def firstLine : List Char → List Char
  | [] => []
  | ['\r'] => []
  | '\n' :: _ => []
  | '\r' :: '\n' :: _ => []
  | c :: rest => c :: firstLine rest

/-- Whether one text stands somewhere inside another. -/
def occursIn (needle : List Char) : List Char → Bool
  | [] => needle.isEmpty
  | c :: rest => needle.isPrefixOf (c :: rest) || occursIn needle rest

/-- Every backslash turned into a slash. -/
def forwardSlashes (cs : List Char) : List Char := cs.map fun c => if c = '\\' then '/' else c

end SceneEdit.Text
