import SceneEdit.Token.Printer
import SceneEdit.Token.Reader

/-!
# How long a token's text is

`Token.weight` is the measure that conversions recurse on. A document that is read weighs no more
than the text it is read from (`Token.weight_le_of_parse?`), and no token weighs more than the text
that is written for it. So whatever is bounded by the weight of a token is bounded by the length of
its text.
-/

namespace SceneEdit

/-- Joined texts are as long as the texts and the commas between them. -/
theorem Text.length_join_le_intercalate (texts : List String) :
    (String.join texts).length + texts.length ≤ (String.intercalate "," texts).length + 1 := by
  induction texts with
  | nil => simp
  | cons first rest ih =>
      cases rest with
      | nil => simp
      | cons second more =>
          rw [String.intercalate_cons_cons]
          simp only [String.join_cons, List.length_cons, String.length_append] at ih ⊢
          have comma : ",".length = 1 := rfl
          omega

/-- A text with a text inside that is not empty is not empty. -/
theorem Text.length_append_pos {first second : String}
    (part : 0 < first.length ∨ 0 < second.length) : 0 < (first ++ second).length := by
  rw [String.length_append]
  omega

theorem NumberLayout.length_write_pos {f : FloatFormat} (layout : NumberLayout)
    (tail : 0 < layout.wholeTail.length) (x : Binary f) : 0 < (layout.write x).length := by
  have magnitude (d : Decimal) : 0 < (layout.magnitudeText d).length := by
    unfold magnitudeText positionalText scientificText
    dsimp only
    split
    · split
      · exact Text.length_append_pos (Or.inl (by decide))
      · split
        · exact Text.length_append_pos (Or.inr tail)
        · exact Text.length_append_pos (Or.inl (Text.length_append_pos (Or.inr (by decide))))
    · exact Text.length_append_pos (Or.inr (Nat.length_repr_pos))
  unfold write
  dsimp only
  split
  · decide
  · split
    · exact Text.length_append_pos (Or.inr (magnitude _))
    · exact Text.length_append_pos (Or.inr (by decide))

namespace Token

theorem length_charText_pos (c : Char) : 0 < (charText c).length := by
  unfold charText
  repeat' split
  all_goals try decide
  · exact Text.length_append_pos (Or.inl (by decide))
  · exact Text.length_append_pos (Or.inl (by decide))
  · simp

theorem length_stringText (s : String) : s.length + 2 ≤ (stringText s).length := by
  have each (cs : List Char) : cs.length ≤ (String.join (cs.map charText)).length := by
    induction cs with
    | nil => exact Nat.zero_le _
    | cons c rest ih =>
        have first := length_charText_pos c
        rw [List.map_cons, String.join_cons, String.length_append, List.length_cons]
        omega
  have chars := each s.toList
  have quote : "\"".length = 1 := rfl
  rw [String.length_toList] at chars
  rw [stringText, String.length_append, String.length_append]
  omega

theorem length_number_pos (n : Number) : 0 < n.text.length := by
  cases n with
  | whole i =>
      cases i with
      | ofNat n => exact Nat.length_repr_pos
      | negSucc n => exact Text.length_append_pos (Or.inl (by decide))
  | real x => exact Number.layout.length_write_pos (by decide) x

mutual

/-- A token weighs no more than its text. -/
theorem weight_le_length_text : (token : Token) → token.weight ≤ token.text.length
  | .null => by decide
  | .bool true => by decide
  | .bool false => by decide
  | .num n => length_number_pos n
  | .str s => by
      rw [weight, text]
      exact length_stringText s
  | .arr items => by
      have joined := Text.length_join_le_intercalate (itemTexts items)
      have inside := itemsWeight_le_length items
      simp only [weight, text, String.length_append]
      have opening : "[".length = 1 := rfl
      have closing : "]".length = 1 := rfl
      omega
  | .obj entries => by
      have joined := Text.length_join_le_intercalate (entryTexts entries)
      have inside := entriesWeight_le_length entries
      simp only [weight, text, String.length_append]
      have opening : "\x7b".length = 1 := rfl
      have closing : "\x7d".length = 1 := rfl
      omega

theorem itemsWeight_le_length : (items : List Token) →
    itemsWeight items ≤ (String.join (itemTexts items)).length + (itemTexts items).length
  | [] => Nat.le_refl _
  | item :: rest => by
      have first := weight_le_length_text item
      have more := itemsWeight_le_length rest
      simp only [itemsWeight, itemTexts, String.join_cons, String.length_append, List.length_cons]
      omega

theorem entriesWeight_le_length : (entries : List (String × Token)) →
    entriesWeight entries ≤ (String.join (entryTexts entries)).length + (entryTexts entries).length
  | [] => Nat.le_refl _
  | (key, value) :: rest => by
      have first := weight_le_length_text value
      have more := entriesWeight_le_length rest
      simp only [entriesWeight, entryTexts, String.join_cons, String.length_append,
        List.length_cons]
      omega

end

end Token
end SceneEdit
