import SceneEdit.Token.Basic
import SceneEdit.Number.Numeral

/-!
# Reading tokens

A strict reader for JSON documents. Each step returns what it read together with the rest of the
text and a bound: the measure of what was read plus the length of the rest is at most the length
of the text. Progress and the comparison of a document with its text both follow from it; the
main statement is `weight_le_of_parse?`.

Nesting is limited: a document may hold at most `depth` arrays and objects inside each other.
-/

namespace SceneEdit.Token

/-- What was read from the front of `text`, and the rest. -/
structure Taken {α : Type} (size : α → Nat) (text : List Char) where
  value : α
  rest : List Char
  bound : size value + rest.length ≤ text.length

namespace Taken

variable {α β : Type} {size : α → Nat} {text : List Char}

/-- The same reading seen from a longer text. -/
def weaken {longer : List Char} (t : Taken size text) (h : text.length ≤ longer.length) :
    Taken size longer :=
  ⟨t.value, t.rest, Nat.le_trans t.bound h⟩

/-- The same reading with its value changed to one that measures no more. -/
def map {size' : β → Nat} (t : Taken size text) (f : α → β)
    (h : ∀ a, size' (f a) ≤ size a) : Taken size' text :=
  ⟨f t.value, t.rest, by have := t.bound; have := h t.value; omega⟩

end Taken

/-- White space between tokens. -/
def isSpace (c : Char) : Bool := c = ' ' || c = '\t' || c = '\n' || c = '\r'

def skipSpace (text : List Char) : List Char := text.dropWhile isSpace

theorem length_dropWhile_le (p : Char → Bool) (text : List Char) :
    (text.dropWhile p).length ≤ text.length := by
  induction text with
  | nil => simp
  | cons c rest ih =>
    rw [List.dropWhile_cons]
    split
    · simp only [List.length_cons]; omega
    · exact Nat.le_refl _

theorem length_skipSpace_le (text : List Char) : (skipSpace text).length ≤ text.length :=
  length_dropWhile_le isSpace text

/-! ### Strings -/

def hexDigit? (c : Char) : Option Nat :=
  if '0' ≤ c ∧ c ≤ '9' then some (c.toNat - '0'.toNat)
  else if 'a' ≤ c ∧ c ≤ 'f' then some (c.toNat - 'a'.toNat + 10)
  else if 'A' ≤ c ∧ c ≤ 'F' then some (c.toNat - 'A'.toNat + 10)
  else none

/-- The number written by four hexadecimal digits. -/
def hex4? (a b c d : Char) : Option Nat := do
  let a ← hexDigit? a
  let b ← hexDigit? b
  let c ← hexDigit? c
  let d ← hexDigit? d
  return ((a * 16 + b) * 16 + c) * 16 + d

def isHighSurrogate (n : Nat) : Bool := 0xd800 ≤ n && n < 0xdc00

def isLowSurrogate (n : Nat) : Bool := 0xdc00 ≤ n && n < 0xe000

/-- The character a single-letter escape stands for. -/
def letterEscape? (c : Char) : Option Char :=
  if c = '"' then some '"'
  else if c = '\\' then some '\\'
  else if c = '/' then some '/'
  else if c = 'b' then some (Char.ofNat 8)
  else if c = 'f' then some (Char.ofNat 12)
  else if c = 'n' then some '\n'
  else if c = 'r' then some '\r'
  else if c = 't' then some '\t'
  else none

/-- The character that a high surrogate makes with the escaped low surrogate after it. -/
def readLowSurrogate (high : Nat) : (text : List Char) → Option (Taken (fun _ : Char => 1) text)
  | '\\' :: 'u' :: a :: b :: c :: d :: rest => do
    let low ← hex4? a b c d
    if isLowSurrogate low then
      some ⟨Char.ofNat (0x10000 + (high - 0xd800) * 0x400 + (low - 0xdc00)), rest,
        by simp only [List.length_cons]; omega⟩
    else none
  | _ => none

/-- The character after a backslash. Two surrogates make one character; one alone makes none. -/
def readEscape : (text : List Char) → Option (Taken (fun _ : Char => 1) text)
  | 'u' :: a :: b :: c :: d :: rest => do
    let n ← hex4? a b c d
    if isLowSurrogate n then none
    else if isHighSurrogate n then
      (readLowSurrogate n rest).map fun t =>
        t.weaken (by simp only [List.length_cons]; omega)
    else some ⟨Char.ofNat n, rest, by simp only [List.length_cons]; omega⟩
  | c :: rest => (letterEscape? c).map fun e => ⟨e, rest, by simp only [List.length_cons]; omega⟩
  | [] => none

/-- The characters of a string up to its closing quote. -/
def readChars (text : List Char) : Option (Taken (fun s : List Char => s.length + 1) text) :=
  match text with
  | [] => none
  | '"' :: rest => some ⟨[], rest, by simp only [List.length_nil, List.length_cons]; omega⟩
  | '\\' :: rest =>
    match readEscape rest with
    | none => none
    | some first =>
      have : first.rest.length < rest.length + 1 := by have := first.bound; omega
      (readChars first.rest).map fun more =>
        ⟨first.value :: more.value, more.rest, by
          have := first.bound; have := more.bound
          simp only [List.length_cons] at *; omega⟩
  | c :: rest =>
    if c.toNat < 0x20 then none
    else (readChars rest).map fun more =>
      ⟨c :: more.value, more.rest, by
        have := more.bound; simp only [List.length_cons] at *; omega⟩
termination_by text.length

/-- A string after its opening quote. -/
def readString (text : List Char) : Option (Taken (fun s : String => s.length + 1) text) :=
  (readChars text).map fun chars =>
    chars.map String.ofList fun s => by simp

/-! ### Numbers -/

def isNumberChar (c : Char) : Bool :=
  c.isDigit || c = '-' || c = '+' || c = '.' || c = 'e' || c = 'E'

/-- Digits without a superfluous leading zero. -/
def isWholePart : List Char → Bool
  | [] => false
  | ['0'] => true
  | '0' :: _ => false
  | _ => true

/-- A whole number that fits 64 bits stays whole; minus zero is not whole. -/
def wholeNumber? (negative : Bool) (n : Nat) : Option Number :=
  if negative then
    if n ≠ 0 ∧ n ≤ twoTo 63 then some (.whole (-(n : Int))) else none
  else if n < twoTo 64 then some (.whole n) else none

/-- A number from a decimal; one too large for the format is refused. -/
def realNumber? (negative : Bool) (digits : Nat) (exponent : Int) : Option Number :=
  let x := Binary.ofDecimal .double negative digits exponent
  if x.isFinite then some (.real x) else none

/-- The number after an optional minus sign. -/
def unsignedNumber? (negative : Bool) (text : List Char) : Option Number :=
  let whole := text.takeWhile Char.isDigit
  let afterWhole := text.dropWhile Char.isDigit
  if !isWholePart whole then none
  else if afterWhole = [] then
    let n := Numeral.digitsValue whole
    (wholeNumber? negative n).or (realNumber? negative n 0)
  else
    let (fraction, rest, ok) := match afterWhole with
      | '.' :: more =>
        let fraction := more.takeWhile Char.isDigit
        (fraction, more.dropWhile Char.isDigit, !fraction.isEmpty)
      | _ => ([], afterWhole, true)
    if !ok then none
    else (Numeral.exponent? rest).bind fun e =>
      realNumber? negative (Numeral.digitsValue (whole ++ fraction)) (e - fraction.length)

/-- The number that a whole text writes. -/
def number? : List Char → Option Number
  | '-' :: rest => unsignedNumber? true rest
  | text => unsignedNumber? false text

/-- A number at the front of a text: the longest run of characters that numbers are made of. -/
def readNumber (text : List Char) : Option (Taken weight text) :=
  match text with
  | [] => none
  | c :: rest =>
    if isNumberChar c then
      (number? (c :: rest.takeWhile isNumberChar)).map fun n =>
        ⟨num n, rest.dropWhile isNumberChar, by
          have := length_dropWhile_le isNumberChar rest
          simp only [weight, List.length_cons]; omega⟩
    else none

/-! ### Documents -/

/-- What follows a character after white space is shorter than the text. -/
theorem length_lt_of_skipSpace {c : Char} {text rest : List Char}
    (h : skipSpace text = c :: rest) : rest.length < text.length := by
  have shorter := length_skipSpace_le text
  rw [h, List.length_cons] at shorter
  exact shorter

/-- What follows a mark after a reading is shorter than the text by the measure of the reading. -/
theorem Taken.length_lt {α : Type} {size : α → Nat} {c : Char} {text rest : List Char}
    (first : Taken size text) (h : skipSpace first.rest = c :: rest) :
    1 + size first.value + rest.length ≤ text.length := by
  have := first.bound
  have := length_lt_of_skipSpace h
  omega

theorem itemsWeight_nil_le {c : Char} {text rest : List Char} (h : skipSpace text = c :: rest) :
    itemsWeight [] + rest.length ≤ text.length := by
  have := length_lt_of_skipSpace h
  rw [itemsWeight]
  omega

theorem itemsWeight_last_le {c : Char} {text rest : List Char} (first : Taken weight text)
    (h : skipSpace first.rest = c :: rest) :
    itemsWeight [first.value] + rest.length ≤ text.length := by
  have := first.length_lt h
  rw [itemsWeight, itemsWeight]
  omega

theorem itemsWeight_more_le {c : Char} {text rest : List Char} (first : Taken weight text)
    (h : skipSpace first.rest = c :: rest) (more : Taken itemsWeight rest) :
    itemsWeight (first.value :: more.value) + more.rest.length ≤ text.length := by
  have := first.length_lt h
  have := more.bound
  rw [itemsWeight]
  omega

/-- The values of an array up to its closing bracket; the first value is due. -/
def readItems (readItem : (text : List Char) → Option (Taken weight text)) (text : List Char) :
    Option (Taken itemsWeight text) :=
  match readItem text with
  | none => none
  | some first =>
    match h : skipSpace first.rest with
    | ']' :: rest => some ⟨[first.value], rest, itemsWeight_last_le first h⟩
    | ',' :: rest =>
      (readItems readItem rest).map fun more =>
        ⟨first.value :: more.value, more.rest, itemsWeight_more_le first h more⟩
    | _ => none
termination_by text.length
decreasing_by
  have := first.length_lt h
  omega

/-- The measure of an entry is that of its value. -/
def entryWeight (entry : String × Token) : Nat := entry.2.weight

theorem entryWeight_le {text rest rest' : List Char}
    (h : skipSpace text = '"' :: rest) (key : Taken (fun s : String => s.length + 1) rest)
    (h' : skipSpace key.rest = ':' :: rest') (item : Taken weight rest') :
    entryWeight (key.value, item.value) + item.rest.length ≤ text.length := by
  have := length_lt_of_skipSpace h
  have := key.length_lt h'
  have := item.bound
  show item.value.weight + item.rest.length ≤ text.length
  omega

/-- One key, its colon and its value. -/
def readEntry (readItem : (text : List Char) → Option (Taken weight text)) (text : List Char) :
    Option (Taken entryWeight text) :=
  match h : skipSpace text with
  | '"' :: rest =>
    match readString rest with
    | none => none
    | some key =>
      match h' : skipSpace key.rest with
      | ':' :: rest' => (readItem rest').map fun item =>
          ⟨(key.value, item.value), item.rest, entryWeight_le h key h' item⟩
      | _ => none
  | _ => none

theorem entriesWeight_nil_le {c : Char} {text rest : List Char} (h : skipSpace text = c :: rest) :
    entriesWeight [] + rest.length ≤ text.length := by
  have := length_lt_of_skipSpace h
  rw [entriesWeight]
  omega

theorem entriesWeight_last_le {c : Char} {text rest : List Char} (first : Taken entryWeight text)
    (h : skipSpace first.rest = c :: rest) :
    entriesWeight [first.value] + rest.length ≤ text.length := by
  have taken := first.length_lt h
  rw [entryWeight] at taken
  rw [entriesWeight_cons, entriesWeight]
  omega

theorem entriesWeight_more_le {c : Char} {text rest : List Char} (first : Taken entryWeight text)
    (h : skipSpace first.rest = c :: rest) (more : Taken entriesWeight rest) :
    entriesWeight (first.value :: more.value) + more.rest.length ≤ text.length := by
  have taken := first.length_lt h
  have := more.bound
  rw [entryWeight] at taken
  rw [entriesWeight_cons]
  omega

/-- The entries of an object up to its closing brace; the first entry is due. -/
def readEntries (readItem : (text : List Char) → Option (Taken weight text)) (text : List Char) :
    Option (Taken entriesWeight text) :=
  match readEntry readItem text with
  | none => none
  | some first =>
    match h : skipSpace first.rest with
    | '\x7d' :: rest => some ⟨[first.value], rest, entriesWeight_last_le first h⟩
    | ',' :: rest =>
      (readEntries readItem rest).map fun more =>
        ⟨first.value :: more.value, more.rest, entriesWeight_more_le first h more⟩
    | _ => none
termination_by text.length
decreasing_by
  have := first.length_lt h
  omega

/-- An array after its opening bracket. -/
def readArray (readItem : (text : List Char) → Option (Taken weight text)) (text : List Char) :
    Option (Taken itemsWeight text) :=
  match h : skipSpace text with
  | ']' :: rest => some ⟨[], rest, itemsWeight_nil_le h⟩
  | _ => readItems readItem text

/-- An object after its opening brace. -/
def readObject (readItem : (text : List Char) → Option (Taken weight text)) (text : List Char) :
    Option (Taken entriesWeight text) :=
  match h : skipSpace text with
  | '\x7d' :: rest => some ⟨[], rest, entriesWeight_nil_le h⟩
  | _ => (readEntries readItem text).map fun entries =>
      entries.map Entries.ofPairs Entries.weight_ofPairs_le

/-- A token at the front of a text that starts with no white space. -/
def readToken (inner : (text : List Char) → Option (Taken weight text))
    (text : List Char) : Option (Taken weight text) :=
  match text with
  | 'n' :: 'u' :: 'l' :: 'l' :: rest =>
    some ⟨null, rest, by simp only [weight, List.length_cons]; omega⟩
  | 't' :: 'r' :: 'u' :: 'e' :: rest =>
    some ⟨bool true, rest, by simp only [weight, List.length_cons]; omega⟩
  | 'f' :: 'a' :: 'l' :: 's' :: 'e' :: rest =>
    some ⟨bool false, rest, by simp only [weight, List.length_cons]; omega⟩
  | '"' :: rest => (readString rest).map fun s =>
      ⟨str s.value, s.rest, by
        have := s.bound; simp only [weight, List.length_cons] at *; omega⟩
  | '[' :: rest => (readArray inner rest).map fun items =>
      ⟨arr items.value, items.rest, by
        have := items.bound; simp only [weight, List.length_cons] at *; omega⟩
  | '\x7b' :: rest => (readObject inner rest).map fun entries =>
      ⟨obj entries.value, entries.rest, by
        have := entries.bound; simp only [weight, List.length_cons] at *; omega⟩
  | other => readNumber other

/-- A token with at most `depth` arrays and objects inside each other. -/
def readValue (depth : Nat) (text : List Char) : Option (Taken weight text) :=
  match depth with
  | 0 =>
    let start := skipSpace text
    if start.head? = some '[' ∨ start.head? = some '\x7b' then none
    else (readToken (fun _ => none) start).map fun t => t.weaken (length_skipSpace_le text)
  | depth + 1 =>
    (readToken (readValue depth) (skipSpace text)).map fun t =>
      t.weaken (length_skipSpace_le text)

/-- Arrays and objects inside each other that a document may have. -/
def documentDepth : Nat := 127

/-- The token that a whole text writes, nested at most `depth` deep. -/
def parse? (depth : Nat) (text : List Char) : Option Token :=
  match readValue depth text with
  | some t => if skipSpace t.rest = [] then some t.value else none
  | none => none

/-- A document weighs no more than its text. -/
theorem weight_le_of_parse? {depth : Nat} {text : List Char} {t : Token}
    (h : parse? depth text = some t) : t.weight ≤ text.length := by
  unfold parse? at h
  split at h
  · rename_i r _
    split at h
    · cases h
      have := r.bound
      omega
    · simp at h
  · simp at h

end SceneEdit.Token
