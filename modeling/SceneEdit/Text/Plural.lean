/-!
# Counted nouns
-/

namespace SceneEdit.Text

/-- The ending of a counted noun whose singular ends in `y`. -/
def pluralY (count : Nat) : String := if count = 1 then "y" else "ies"

end SceneEdit.Text
