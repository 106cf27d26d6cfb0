import Mathlib.Data.List.DropRight
import Mathlib.Data.List.Infix
import Mathlib.Data.List.TakeWhile
import SceneEdit.Text.Blank
import SceneEdit.Text.Case

/-!
# Trimming, cutting and searching texts

Trimming takes a part out of a text, and takes nothing more out of that part. Cutting a text leaves
pieces without the characters it is cut at. A lowercase form is as empty as the text it is made of,
and a text stands somewhere inside another if and only if it is a part of it without gaps.
-/

namespace SceneEdit.Text

variable {p : Char → Bool} {cs : List Char}

theorem strip_infix (p : Char → Bool) (cs : List Char) : strip p cs <:+: cs := by
  have front : cs.dropWhile p <:+ cs := List.dropWhile_suffix p
  have back : ((cs.dropWhile p).reverse.dropWhile p).reverse <+: cs.dropWhile p := by
    rw [← List.reverse_suffix, List.reverse_reverse]
    exact List.dropWhile_suffix p
  exact back.isInfix.trans front.isInfix

theorem strip_eq_self (none : ∀ c ∈ cs, p c = false) : strip p cs = cs := by
  have kept : ∀ {cs : List Char}, (∀ c ∈ cs, p c = false) → cs.dropWhile p = cs := by
    intro cs none
    cases cs with
    | nil => rfl
    | cons c rest => exact List.dropWhile_cons_of_neg (by simp [none c List.mem_cons_self])
  rw [strip, kept none, kept fun c member => none c (List.mem_reverse.mp member),
    List.reverse_reverse]

/-- Taking characters off the end does not bring others to the front. -/
theorem strip_strip (p : Char → Bool) (cs : List Char) : strip p (strip p cs) = strip p cs := by
  have front : (strip p cs).dropWhile p = strip p cs := by
    have start : strip p cs <+: cs.dropWhile p := List.rdropWhile_prefix p _
    refine List.dropWhile_eq_self_iff.mpr fun given first => ?_
    have given' := Nat.lt_of_lt_of_le given start.length_le
    rw [start.getElem given] at first
    exact List.dropWhile_get_zero_not p cs given' first
  rw [strip, front]
  exact List.rdropWhile_idempotent p (cs.dropWhile p)

theorem trim_trim (s : String) : trim (trim s) = trim s := by
  rw [trim, trim, String.toList_ofList, trimmed, trimmed, strip_strip]

theorem forwardSlashes_eq_self_iff : forwardSlashes cs = cs ↔ '\\' ∉ cs := by
  have each : cs.map (fun c => if c = '\\' then '/' else c) = cs.map id ↔
      ∀ c ∈ cs, (if c = '\\' then '/' else c) = c := List.map_inj_left
  rw [List.map_id] at each
  rw [forwardSlashes, each]
  constructor
  · intro kept inside
    exact absurd (kept _ inside) (by decide)
  · intro none c inside
    refine if_neg ?_
    rintro rfl
    exact none inside

theorem not_of_mem_splitOnP {piece : List Char} (member : piece ∈ cs.splitOnP p) :
    ∀ c ∈ piece, p c = false := by
  induction cs generalizing piece with
  | nil =>
      rw [List.splitOnP_nil, List.mem_singleton] at member
      simp [member]
  | cons c rest ih =>
      rw [List.splitOnP_cons_eq_if_modifyHead] at member
      split at member
      · obtain rfl | member := List.mem_cons.mp member
        · simp
        · exact ih member
      · rename_i other
        obtain ⟨first, more, cut⟩ := List.exists_cons_of_ne_nil (List.splitOnP_ne_nil p rest)
        rw [cut] at ih member
        obtain rfl | member := List.mem_cons.mp member
        · refine List.forall_mem_cons.mpr ⟨by simpa using other, ?_⟩
          exact ih List.mem_cons_self
        · exact ih (List.mem_cons_of_mem _ member)

theorem lowercaseChar_ne_nil (c : Char) : lowercaseChar c ≠ [] := by
  rw [lowercaseChar]
  split
  · simp
  · split
    · simp
    · dsimp only
      split
      all_goals simp

theorem lowercase_eq_nil_iff : lowercase cs = [] ↔ cs = [] := by
  cases cs with
  | nil => exact iff_of_true rfl rfl
  | cons c rest =>
      refine iff_of_false (fun none => ?_) (List.cons_ne_nil c rest)
      rw [lowercase, lowercaseFrom] at none
      have first := List.append_eq_nil_iff.mp none |>.1
      split at first
      · split at first
        all_goals simp at first
      · exact lowercaseChar_ne_nil c first

theorem occursIn_iff {needle : List Char} : occursIn needle cs = true ↔ needle <:+: cs := by
  induction cs with
  | nil => rw [occursIn, List.isEmpty_iff, List.infix_nil]
  | cons c rest ih =>
      rw [occursIn, Bool.or_eq_true, List.isPrefixOf_iff_prefix, ih, List.infix_cons_iff]

end SceneEdit.Text
