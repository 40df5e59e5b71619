import Mathlib.Data.List.Nodup
import Mathlib.Data.List.Perm.Subperm
import Mathlib.Logic.Relation

/-!
# Lineages

Where every node has at most one child, the descendants of a node stand in one
line. A rank that grows from parent to child tells them apart, so there are no
more of them than there are ranks.
-/

namespace Scrum4Me
namespace Foundation

open Relation

section Lineage

variable {α : Type u} {child : α → α → Prop} {rank : α → Nat}

/-- Ranks do not fall along a line of descent. -/
theorem rank_le_of_descends (grows : ∀ parent node, child parent node → rank parent < rank node)
    {first second : α} (descends : ReflTransGen child first second) :
    rank first ≤ rank second := by
  induction descends with
  | refl => exact Nat.le_refl _
  | tail _ next ih => exact Nat.le_of_lt (Nat.lt_of_le_of_lt ih (grows _ _ next))

/-- A proper descendant ranks above. -/
theorem eq_of_descends_of_rank (grows : ∀ parent node, child parent node → rank parent < rank node)
    {first second : α} (descends : ReflTransGen child first second)
    (same : rank first = rank second) :
    first = second := by
  rcases descends.cases_head with rfl | ⟨middle, next, later⟩
  · rfl
  · have above := grows _ _ next
    have notBelow := rank_le_of_descends grows later
    omega

/-- Two nodes of one lineage are one node when they have one rank. -/
theorem lineage_rank_inj (single : Relator.RightUnique child)
    (grows : ∀ parent node, child parent node → rank parent < rank node)
    {root first second : α} (firstDescends : ReflTransGen child root first)
    (secondDescends : ReflTransGen child root second) (same : rank first = rank second) :
    first = second := by
  rcases ReflTransGen.total_of_right_unique single firstDescends
    secondDescends with forward | backward
  · exact eq_of_descends_of_rank grows forward same
  · exact (eq_of_descends_of_rank grows backward same.symm).symm

/-- A lineage is no longer than the number of its ranks. -/
theorem lineage_length_le (single : Relator.RightUnique child)
    (grows : ∀ parent node, child parent node → rank parent < rank node) {root : α}
    {bound : Nat} {family : List α} (distinct : family.Nodup)
    (descends : ∀ node ∈ family, ReflTransGen child root node)
    (bounded : ∀ node ∈ family, rank node < bound) :
    family.length ≤ bound := by
  have ranks : (family.map rank).Nodup := by
    refine (List.nodup_map_iff_inj_on distinct).mpr ?_
    intro first firstMember second secondMember same
    exact lineage_rank_inj single grows (descends first firstMember)
      (descends second secondMember) same
  have within : family.map rank ⊆ List.range bound := by
    intro value member
    obtain ⟨node, inside, rfl⟩ := List.mem_map.mp member
    exact List.mem_range.mpr (bounded node inside)
  have shorter := (List.subperm_of_subset ranks within).length_le
  simpa using shorter

end Lineage

end Foundation
end Scrum4Me
