import Mathlib.Order.MinMax
import SceneEdit.Suggestion

/-!
# Edit distance

The least number of characters to be removed, inserted or replaced in order to turn one text into
another, and that computing it row by row and giving up early finds it wherever it is within the
limit (`boundedDistance_spec`).

The recursive distance takes texts apart at the front, while a row knows the distances between what
has been read and each front part of the other text. What ties them together is the cheapest way to
go on from a row: an entry, and then the distance between what is left of the two texts. For the
first row this is the distance of the texts, the last entry of the last row is what is left of it,
and no step from a row to the next one changes it (`completion_nextRow`). It is never below the
least entry of the row, so once all entries are past the limit, so is the distance.
-/

namespace SceneEdit.Suggestion

/-- The edit distance of two texts. -/
def editDistance : List Char → List Char → Nat
  | [], needle => needle.length
  | c :: text, [] => (c :: text).length
  | c :: text, n :: needle =>
    min (min (editDistance text (n :: needle) + 1) (editDistance (c :: text) needle + 1))
      (editDistance text needle + if c = n then 0 else 1)

/-- One text is turned into another one by at most so many edits of single characters. -/
inductive Edits : Nat → List Char → List Char → Prop
  | done (count : Nat) : Edits count [] []
  | keep {count : Nat} {text needle : List Char} (c : Char) (rest : Edits count text needle) :
      Edits count (c :: text) (c :: needle)
  | remove {count : Nat} {text needle : List Char} (c : Char) (rest : Edits count text needle) :
      Edits (count + 1) (c :: text) needle
  | insert {count : Nat} {text needle : List Char} (n : Char) (rest : Edits count text needle) :
      Edits (count + 1) text (n :: needle)
  | replace {count : Nat} {text needle : List Char} (c n : Char)
      (rest : Edits count text needle) : Edits (count + 1) (c :: text) (n :: needle)

/-! ### The recursive distance -/

@[simp] theorem editDistance_nil (needle : List Char) : editDistance [] needle = needle.length := by
  rw [editDistance]

@[simp] theorem editDistance_nil_right (text : List Char) : editDistance text [] = text.length := by
  cases text with
  | nil => rw [editDistance]
  | cons c text => rw [editDistance]

theorem editDistance_cons_cons (c n : Char) (text needle : List Char) :
    editDistance (c :: text) (n :: needle) =
      min (min (editDistance text (n :: needle) + 1) (editDistance (c :: text) needle + 1))
        (editDistance text needle + if c = n then 0 else 1) := by
  rw [editDistance]

/-- The first character may be removed. -/
theorem editDistance_cons_le (c : Char) (text needle : List Char) :
    editDistance (c :: text) needle ≤ editDistance text needle + 1 := by
  cases needle with
  | nil => simp
  | cons n needle =>
      rw [editDistance_cons_cons]
      omega

/-- A character may be inserted at the front. -/
theorem editDistance_le_cons (n : Char) (text needle : List Char) :
    editDistance text (n :: needle) ≤ editDistance text needle + 1 := by
  cases text with
  | nil => simp
  | cons c text =>
      rw [editDistance_cons_cons]
      omega

theorem Edits.mono {count more : Nat} {text needle : List Char} (edits : Edits count text needle)
    (fewer : count ≤ more) : Edits more text needle := by
  induction edits generalizing more with
  | done => exact .done more
  | keep c _ ih => exact .keep c (ih fewer)
  | remove c _ ih =>
      obtain ⟨less, rfl⟩ : ∃ less, more = less + 1 := ⟨more - 1, by omega⟩
      exact .remove c (ih (by omega))
  | insert n _ ih =>
      obtain ⟨less, rfl⟩ : ∃ less, more = less + 1 := ⟨more - 1, by omega⟩
      exact .insert n (ih (by omega))
  | replace c n _ ih =>
      obtain ⟨less, rfl⟩ : ∃ less, more = less + 1 := ⟨more - 1, by omega⟩
      exact .replace c n (ih (by omega))

theorem edits_editDistance (text needle : List Char) :
    Edits (editDistance text needle) text needle := by
  induction text generalizing needle with
  | nil =>
      rw [editDistance_nil]
      induction needle with
      | nil => exact .done 0
      | cons n needle ih => exact .insert n ih
  | cons c text ih =>
      induction needle with
      | nil =>
          have rest := ih []
          rw [editDistance_nil_right] at rest ⊢
          exact .remove c rest
      | cons n needle ih' =>
          rw [editDistance_cons_cons]
          rcases min_choice (min (editDistance text (n :: needle) + 1)
            (editDistance (c :: text) needle + 1))
            (editDistance text needle + if c = n then 0 else 1) with least | least
          · rw [least]
            rcases min_choice (editDistance text (n :: needle) + 1)
              (editDistance (c :: text) needle + 1) with removed | inserted
            · rw [removed]
              exact .remove c (ih _)
            · rw [inserted]
              exact .insert n ih'
          · rw [least]
            split
            · rename_i same
              exact same ▸ .keep c (ih _)
            · exact .replace c n (ih _)

/-- The edit distance is the least number of edits. -/
theorem editDistance_le_iff {text needle : List Char} {count : Nat} :
    editDistance text needle ≤ count ↔ Edits count text needle := by
  refine ⟨(edits_editDistance text needle).mono, fun edits => ?_⟩
  induction edits with
  | done => simp
  | @keep count text needle c _ ih =>
      have kept := editDistance_cons_cons c c text needle
      rw [if_pos rfl] at kept
      omega
  | @remove count text needle c _ ih =>
      have removed := editDistance_cons_le c text needle
      omega
  | @insert count text needle n _ ih =>
      have inserted := editDistance_le_cons n text needle
      omega
  | @replace count text needle c n _ ih =>
      have replaced := editDistance_cons_cons c n text needle
      split at replaced
      all_goals omega

/-! ### Going on from a row -/

/-- A row has an entry for each front part of the needle, the empty one included, and no entry is
more than one above the entry before it. -/
inductive IsRow : List Char → List Nat → Prop
  | last (cell : Nat) : IsRow [] [cell]
  | cons (n : Char) {needle : List Char} {cell next : Nat} {row : List Nat}
      (rest : IsRow needle (next :: row)) (close : next ≤ cell + 1) :
      IsRow (n :: needle) (cell :: next :: row)

/-- The cheapest way to go on from a row: an entry, and then the distance between what is left of
the text and what is left of the needle. -/
def completion (rest : List Char) : List Char → List Nat → Nat
  | n :: needle, cell :: row =>
    min (cell + editDistance rest (n :: needle)) (completion rest needle row)
  | needle, row => row.headD 0 + editDistance rest needle

variable {needle : List Char} {row : List Nat} {first left : Nat}

theorem completion_last (rest : List Char) (cell : Nat) :
    completion rest [] [cell] = cell + rest.length := by
  rw [completion, editDistance_nil_right]
  · rfl
  · simp

theorem completion_le_first (rest : List Char) (needle : List Char) (first : Nat)
    (row : List Nat) :
    completion rest needle (first :: row) ≤ first + editDistance rest needle := by
  cases needle with
  | nil => exact Nat.le_refl _
  | cons n needle => exact Nat.min_le_left _ _

/-- Going on from the next row, computed as far as the entry `left`, is going on from that entry or
from the row before. -/
theorem completion_nextCells (c : Char) (rest : List Char) (isRow : IsRow needle (first :: row))
    (close : left ≤ first + 1) :
    completion rest needle (left :: nextCells c needle first row left) =
      min (left + editDistance rest needle) (completion (c :: rest) needle (first :: row)) := by
  induction needle generalizing first row left with
  | nil =>
      cases isRow
      rw [nextCells, completion_last, completion_last, editDistance_nil_right, List.length_cons]
      · omega
      · simp
  | cons n needle ih =>
      obtain _ | @⟨_, _, _, above, row, isRow, near⟩ := isRow
      rw [nextCells]
      generalize found :
        min (min (above + 1) (left + 1)) (first + if c = n then 0 else 1) = cell
      have reached : cell ≤ above + 1 := by omega
      have later := ih isRow reached
      have least := completion_le_first (c :: rest) needle above row
      have removed := editDistance_cons_le c rest needle
      have inserted := editDistance_le_cons n rest needle
      have step := editDistance_cons_cons c n rest needle
      rw [completion, later, completion]
      -- From `left` it is no dearer to insert `n` than from `first` to remove `c`, and entering
      -- the new entry from above is no cheaper than to go on from the entry above.
      generalize (if c = n then 0 else 1) = cost at *
      omega

/-- A step from a row to the next one leaves the cheapest way to go on as it was. -/
theorem completion_nextRow (c : Char) (rest : List Char) (isRow : IsRow needle row) :
    completion rest needle (nextRow c needle row) = completion (c :: rest) needle row := by
  obtain ⟨first, row, rfl⟩ : ∃ first after, row = first :: after := by
    cases isRow
    · exact ⟨_, _, rfl⟩
    · exact ⟨_, _, rfl⟩
  have least := completion_le_first (c :: rest) needle first row
  have removed := editDistance_cons_le c rest needle
  rw [nextRow, completion_nextCells c rest isRow (Nat.le_refl _)]
  omega

theorem isRow_nextCells (c : Char) (isRow : IsRow needle (first :: row)) (left : Nat) :
    IsRow needle (left :: nextCells c needle first row left) := by
  induction needle generalizing first row left with
  | nil =>
      cases isRow
      rw [nextCells]
      · exact .last left
      · simp
  | cons n needle ih =>
      obtain _ | @⟨_, _, _, above, row, isRow, near⟩ := isRow
      rw [nextCells]
      exact .cons n (ih isRow _) (by omega)

theorem isRow_nextRow (c : Char) (isRow : IsRow needle row) :
    IsRow needle (nextRow c needle row) := by
  cases isRow with
  | last cell => exact isRow_nextCells c (.last cell) _
  | cons n rest close => exact isRow_nextCells c (.cons n rest close) _

/-- No way to go on is below the least entry of the row. -/
theorem lt_completion {limit : Nat} (rest : List Char) (isRow : IsRow needle row)
    (past : ∀ cell ∈ row, limit < cell) : limit < completion rest needle row := by
  induction isRow with
  | last cell =>
      have first := past cell (List.mem_singleton_self cell)
      rw [completion_last]
      omega
  | @cons n needle cell next row _ _ ih =>
      have first := past cell List.mem_cons_self
      have later := ih fun other member => past other (List.mem_cons_of_mem _ member)
      rw [completion]
      omega

/-- At the end of the text the last entry of a row is the cheapest way to go on, since the entries
grow by one at most. -/
theorem completion_nil (isRow : IsRow needle row) : completion [] needle row = row.getLastD 0 := by
  have last : completion [] needle row = row.getLastD 0 ∧
      row.getLastD 0 ≤ row.headD 0 + needle.length := by
    induction isRow with
    | last cell => exact ⟨completion_last [] cell, Nat.le_refl _⟩
    | @cons n needle cell next row _ close ih =>
        obtain ⟨same, near⟩ := ih
        have tail : (cell :: next :: row).getLastD 0 = (next :: row).getLastD 0 := rfl
        rw [completion, same, tail, editDistance_nil, List.headD_cons, List.length_cons]
        rw [List.headD_cons] at near
        omega
  exact last.1

/-- The first row: inserting the front parts of the needle. -/
theorem completion_range' (text needle : List Char) (start : Nat) :
    completion text needle (List.range' start (needle.length + 1)) =
      start + editDistance text needle := by
  induction needle generalizing start with
  | nil => rfl
  | cons n needle ih =>
      have inserted := editDistance_le_cons n text needle
      rw [List.length_cons, List.range'_succ, completion, ih]
      omega

theorem isRow_range' (needle : List Char) (start : Nat) :
    IsRow needle (List.range' start (needle.length + 1)) := by
  induction needle generalizing start with
  | nil => exact .last start
  | cons n needle ih => exact .cons n (ih (start + 1)) (Nat.le_refl _)

/-! ### The distance within a limit -/

/-- A distance as far as a limit lets it be seen. -/
def WithinLimit (limit distance found : Nat) : Prop :=
  found = distance ∨ limit < distance ∧ limit < found

theorem boundedFrom_spec (limit : Nat) (text : List Char) (isRow : IsRow needle row) :
    WithinLimit limit (completion text needle row) (boundedFrom needle limit row text) := by
  induction text generalizing row with
  | nil => exact Or.inl (completion_nil isRow).symm
  | cons c rest ih =>
      rw [boundedFrom, ← completion_nextRow c rest isRow]
      have next := isRow_nextRow c isRow
      split
      · rename_i past
        refine Or.inr ⟨lt_completion rest next fun cell member => ?_, Nat.lt_succ_self limit⟩
        exact of_decide_eq_true (List.all_eq_true.mp past cell member)
      · exact ih next

/-- What is computed row by row is the distance wherever that is within the limit, and beyond the
limit otherwise. -/
theorem boundedDistance_spec (limit : Nat) (text needle : List Char) :
    WithinLimit limit (editDistance text needle) (boundedDistance limit text needle) := by
  rw [boundedDistance]
  split
  · rename_i empty
    rw [List.isEmpty_iff.mp empty, editDistance_nil_right]
    exact Or.inl rfl
  · have start := boundedFrom_spec limit text (isRow_range' needle 0)
    rw [completion_range', Nat.zero_add, ← List.range_eq_range'] at start
    exact start

end SceneEdit.Suggestion
