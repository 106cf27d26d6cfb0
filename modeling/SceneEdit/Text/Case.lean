import SceneEdit.Text.CaseTable

/-!
# Letter case

Two ways to disregard case. Names of members, enum labels and components compare equal ignoring
the case of ASCII letters only; suggestions and boolean words compare full lowercase forms, where
a letter may become two and the last sigma of a word has a form of its own.
-/

namespace SceneEdit.Text

/-- Equality up to the case of ASCII letters. -/
def sameIgnoringCase (a b : String) : Bool :=
  a.toList.map Char.toLower == b.toList.map Char.toLower

theorem sameIgnoringCase_refl (a : String) : sameIgnoringCase a a = true := by
  simp [sameIgnoringCase]

/-- The value of the first name that a text spells, up to the case of ASCII letters. -/
def lookupIgnoringCase {α : Type} (names : List (String × α)) (text : String) : Option α :=
  (names.find? fun entry => sameIgnoringCase entry.1 text).map Prod.snd

def isCased (c : Char) : Bool := inRanges casedRanges c.toNat

def isCaseIgnorable (c : Char) : Bool := inRanges caseIgnorableRanges c.toNat

/-- Whether the first character that is not passed over has case. -/
def meetsCased (cs : List Char) : Bool :=
  match cs.dropWhile isCaseIgnorable with
  | [] => false
  | c :: _ => isCased c

/-- The lowercase form of one character, out of context. -/
def lowercaseChar (c : Char) : List Char :=
  if c.toNat < 0x80 then [c.toLower]
  else if c.toNat = 0x130 then ['i', Char.ofNat 0x307]
  else
    let row := lowercaseRanges.find? fun (first, last, spacing, _) =>
      first ≤ c.toNat && c.toNat ≤ last && (c.toNat - first) % spacing = 0
    match row with
    | some (_, _, _, distance) => [Char.ofNat (c.toNat + distance).toNat]
    | none => [c]

/-- The lowercase form of a text; `before` is what precedes it, nearest character first. A capital
sigma is written in its final form after a letter with case and not before one. -/
def lowercaseFrom (before : List Char) : List Char → List Char
  | [] => []
  | c :: rest =>
    let lowered :=
      if c = 'Σ' then if meetsCased before && !meetsCased rest then ['ς'] else ['σ']
      else lowercaseChar c
    lowered ++ lowercaseFrom (c :: before) rest

/-- The lowercase form of a text. -/
def lowercase (cs : List Char) : List Char := lowercaseFrom [] cs

end SceneEdit.Text
