import Mathlib.Data.List.Pairwise
import SceneEdit.Proofs.Value.Outline

/-!
# Members of one name

A name that members have exactly stands for one of them, whatever other names match ignoring case:
the first by visibility, and by place among those as visible as it (`Table.exists_leads`). Which one
that is does not depend on what the members hold.
-/

namespace SceneEdit.Table

variable {ν : Type} {table : Table ν} {name : String} {index : Nat} {member : Slot ν}

/-- The member of a name that comes first, by visibility and then by place. -/
structure Leads (table : Table ν) (name : String) (index : Nat) (member : Slot ν) : Prop where
  there : table.members[index]? = some member
  named : member.name = name
  first : ∀ place other, table.members[place]? = some other → other.name = name →
    member.kind.rank < other.kind.rank ∨ member.kind = other.kind ∧ index ≤ place

theorem Leads.index_eq {index' : Nat} {member' : Slot ν} (leads : table.Leads name index member)
    (leads' : table.Leads name index' member') : index = index' := by
  have forth := leads.first _ _ leads'.there leads'.named
  have back := leads'.first _ _ leads.there leads.named
  obtain lower | ⟨same, le⟩ := forth <;> obtain lower' | ⟨same', le'⟩ := back
  · omega
  · rw [same'] at lower
    omega
  · rw [same] at lower'
    omega
  · omega

theorem pairwise_matching (table : Table ν) (name : String) :
    (table.matching name).Pairwise fun entry other => entry.2 < other.2 := by
  have places : (table.members.zipIdx.map Prod.snd).Pairwise (· < ·) := by
    rw [List.zipIdx_map_snd]
    exact List.pairwise_lt_range'
  exact (List.pairwise_map.mp places).filter _

/-- Of members in the order of their places, the leading one comes first. -/
theorem le_of_leading? {members : List (Slot ν × Nat)} {entry other : Slot ν × Nat}
    (ordered : members.Pairwise fun entry other => entry.2 < other.2)
    (leads : leading? members = some entry) (inside : other ∈ members) :
    entry.1.kind.rank < other.1.kind.rank ∨ entry.1.kind = other.1.kind ∧ entry.2 ≤ other.2 := by
  have tiers : [MemberKind.property, .field, .hidden].Pairwise fun a b => a.rank < b.rank := by
    decide
  have listed : other.1.kind ∈ [MemberKind.property, .field, .hidden] := by
    cases other.1.kind <;> decide
  obtain ⟨above, kind, below, split, found, none⟩ := List.findSome?_eq_some_iff.mp leads
  obtain ⟨holds, before, after, rfl, others⟩ := List.find?_eq_some_iff_append.mp found
  have same : entry.1.kind = kind := of_decide_eq_true holds
  rw [split] at listed tiers
  rw [same]
  obtain higher | lower := List.mem_append.mp listed
  · -- No member is more visible than the leading one.
    exact absurd (decide_eq_true rfl) (List.find?_eq_none.mp (none _ higher) other inside)
  · obtain here | lower := List.mem_cons.mp lower
    · refine Or.inr ⟨here.symm, ?_⟩
      obtain earlier | later := List.mem_append.mp inside
      · simpa [here] using others other earlier
      · obtain rfl | later := List.mem_cons.mp later
        · exact Nat.le_refl _
        · exact Nat.le_of_lt ((List.pairwise_cons.mp (List.pairwise_append.mp ordered).2.1).1
            other later)
    · exact Or.inl ((List.pairwise_cons.mp (List.pairwise_append.mp tiers).2.1).1 _ lower)

/-- A name that some member has exactly is the name of the member of it that leads. -/
theorem exists_leads (there : table.members[index]? = some member) (named : member.name = name) :
    ∃ first leader, table.Leads name first leader ∧ (table.find name).result = .ok first := by
  have exactly : ∀ {place other}, table.members[place]? = some other → other.name = name →
      (other, place) ∈ (table.matching name).filter fun entry => entry.1.name = name :=
    fun held same => List.mem_filter.mpr ⟨mem_matching_iff.mpr
      ⟨held, same ▸ Text.sameIgnoringCase_refl _⟩, decide_eq_true same⟩
  rw [find]
  split
  · rename_i leader place leads
    obtain ⟨inside, same⟩ := List.mem_filter.mp (mem_of_leading? leads)
    refine ⟨place, leader, ⟨(mem_matching_iff.mp inside).1, of_decide_eq_true same,
      fun place other held same => ?_⟩, by split <;> rfl⟩
    exact le_of_leading? ((table.pairwise_matching name).filter _) leads (exactly held same)
  · rename_i alone
    exact absurd (exactly there named) (eq_nil_of_leading? alone ▸ List.not_mem_nil)

/-- Where names differ, the name of a member stands for it, even if others match ignoring case. -/
theorem find_own (distinct : (table.members.map (·.name)).Nodup)
    (there : table.members[index]? = some member) :
    (table.find member.name).result = .ok index := by
  obtain ⟨first, leader, leads, looked⟩ := exists_leads there rfl
  have inside := (List.getElem?_eq_some_iff.mp leads.there).1
  have same : first = index := by
    refine (List.getElem?_inj (by simpa using inside) distinct).mp ?_
    rw [List.getElem?_map, List.getElem?_map, leads.there, there, Option.map_some, Option.map_some,
      leads.named]
  rw [looked, same]

/-- Which member of a name comes first does not depend on what is held. -/
theorem Leads.of_outline {object changed : Object} {member : Member}
    (leads : object.Leads name index member) (same : changed.outline = object.outline) :
    ∃ value, changed.Leads name index { member with value } := by
  obtain ⟨value, there⟩ := member_of_outline same leads.there
  refine ⟨value, there, leads.named, fun place other held named => ?_⟩
  obtain ⟨old, held'⟩ := member_of_outline same.symm held
  exact leads.first place { other with value := old } held' named

end SceneEdit.Table
