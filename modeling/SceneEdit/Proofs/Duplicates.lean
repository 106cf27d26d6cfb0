import Mathlib.Data.List.Nodup

/-!
# Erasing duplicates

What is left of a list when duplicates are erased: each item once, in the place where it came
first. An item that is put behind the list is left out if it is there already.
-/

namespace SceneEdit

/-- By induction on the length, since each step filters what follows. -/
theorem nodup_eraseDups {α : Type} [BEq α] [LawfulBEq α] (items : List α) :
    items.eraseDups.Nodup := by
  induction size : items.length using Nat.strongRecOn generalizing items with
  | ind n ih =>
      subst size
      cases items with
      | nil => exact List.nodup_nil
      | cons item rest =>
          have shorter := List.length_filter_le (fun other => !other == item) rest
          rw [List.eraseDups_cons, List.nodup_cons]
          refine ⟨fun member => ?_, ih _ (Nat.lt_succ_of_le shorter) _ rfl⟩
          simpa using List.of_mem_filter (List.mem_eraseDups.mp member)

theorem eraseDups_sublist {α : Type} [BEq α] [LawfulBEq α] (items : List α) :
    items.eraseDups.Sublist items := by
  induction size : items.length using Nat.strongRecOn generalizing items with
  | ind n ih =>
      subst size
      cases items with
      | nil => exact List.Sublist.refl _
      | cons item rest =>
          have shorter := List.length_filter_le (fun other => !other == item) rest
          rw [List.eraseDups_cons]
          exact ((ih _ (Nat.lt_succ_of_le shorter) _ rfl).trans List.filter_sublist).cons_cons item

/-- Items that do not repeat stay as they are. -/
theorem eraseDups_eq_self {α : Type} [BEq α] [LawfulBEq α] {items : List α}
    (distinct : items.Nodup) : items.eraseDups = items := by
  have same : items.eraseDups.Perm items :=
    (List.perm_ext_iff_of_nodup (nodup_eraseDups items) distinct).mpr fun _ => List.mem_eraseDups
  exact (eraseDups_sublist items).eq_of_length same.length_eq

theorem eraseDups_concat_of_mem {α : Type} [BEq α] [LawfulBEq α] {items : List α} {item : α}
    (member : item ∈ items) : (items ++ [item]).eraseDups = items.eraseDups := by
  rw [List.eraseDups_append]
  simp [List.removeAll, member]

theorem eraseDups_concat_of_not_mem {α : Type} [BEq α] [LawfulBEq α] {items : List α} {item : α}
    (new : item ∉ items) : (items ++ [item]).eraseDups = items.eraseDups ++ [item] := by
  have kept : [item].removeAll items = [item] := by simp [List.removeAll, new]
  rw [List.eraseDups_append, kept, eraseDups_eq_self (List.nodup_singleton item)]

end SceneEdit
