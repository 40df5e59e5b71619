import Mathlib.Data.List.Pairwise
import Mathlib.Data.List.Sort
import Mathlib.Tactic.Tauto

/-!
# Stable sorting

An insertion sort keeps the order of what compares equal. Its result depends on the
order of the list only where two values compare equal and nothing else tells them apart.
-/

namespace Scrum4Me
namespace Foundation

variable {least earlier : α → α → Prop}

/-- In the order of the sort and, where that does not tell, in the order before it. -/
def InTurn (least earlier : α → α → Prop) (first second : α) : Prop :=
  least first second ∧ (least second first → earlier first second)

section Sorting

variable [DecidableRel least] [Std.Total least] [IsTrans α least]

theorem pairwise_orderedInsert_inTurn
    (value : α) (sorted : List α) (turns : sorted.Pairwise (InTurn least earlier))
    (before : ∀ other ∈ sorted, earlier value other) :
    (sorted.orderedInsert least value).Pairwise (InTurn least earlier) := by
  induction sorted with
  | nil => simp
  | cons head tail ih =>
    obtain ⟨fromHead, tailTurns⟩ := List.pairwise_cons.mp turns
    by_cases first : least value head
    · rw [List.orderedInsert_cons_of_le least tail first]
      refine List.pairwise_cons.mpr ⟨fun other member => ?_, turns⟩
      refine ⟨?_, fun _ => before other member⟩
      rcases List.mem_cons.mp member with rfl | member
      · exact first
      · exact IsTrans.trans _ _ _ first (fromHead other member).1
    · rw [List.orderedInsert_of_not_le least tail first]
      have later := ih tailTurns fun other member => before other (List.mem_cons_of_mem _ member)
      refine List.pairwise_cons.mpr ⟨fun other member => ?_, later⟩
      rcases (List.mem_orderedInsert least).mp member with rfl | member
      · exact ⟨(total_of least _ _).resolve_left first, fun same => absurd same first⟩
      · exact fromHead other member

theorem pairwise_insertionSort_inTurn (values : List α) (before : values.Pairwise earlier) :
    (values.insertionSort least).Pairwise (InTurn least earlier) := by
  induction values with
  | nil => simp
  | cons value values ih =>
    obtain ⟨fromValue, rest⟩ := List.pairwise_cons.mp before
    rw [List.insertionSort_cons]
    exact pairwise_orderedInsert_inTurn value _ (ih rest)
      fun other member => fromValue other ((List.mem_insertionSort least).mp member)

/-- Lists of the same values are sorted alike where ties are told apart. -/
theorem insertionSort_eq_of_perm {values others : List α} (same : values.Perm others)
    (before : values.Pairwise earlier) (before' : others.Pairwise earlier)
    (told : ∀ first ∈ values, ∀ second ∈ values, least first second →
      least second first → earlier first second → earlier second first →
      first = second) :
    values.insertionSort least = others.insertionSort least := by
  refine List.Perm.eq_of_pairwise ?_ (pairwise_insertionSort_inTurn values before)
    (pairwise_insertionSort_inTurn others before')
    ((List.perm_insertionSort least values).trans
      (same.trans (List.perm_insertionSort least others).symm))
  intro first second member member' turn turn'
  exact told first ((List.mem_insertionSort least).mp member) second
    (same.mem_iff.mpr ((List.mem_insertionSort least).mp member')) turn.1 turn'.1
    (turn.2 turn'.1) (turn'.2 turn.1)

/-- A tie is not turned round. -/
theorem insertionSort_ne_of_tie
    {values others : List α} {first second : α} (distinct : first ≠ second)
    (tied : least first second) (tied' : least second first) (member : first ∈ values)
    (member' : second ∈ values)
    (before : values.Pairwise fun value other => ¬ (value = second ∧ other = first))
    (before' : others.Pairwise fun value other => ¬ (value = first ∧ other = second)) :
    values.insertionSort least ≠ others.insertionSort least := by
  intro same
  have turns := (pairwise_insertionSort_inTurn values before).and
    (same ▸ pairwise_insertionSort_inTurn others before')
  have apart : (values.insertionSort least).Pairwise fun value other =>
      ¬ (least other value ∧ least value other ∧
        (value = first ∧ other = second ∨ value = second ∧ other = first)) := by
    refine turns.imp ?_
    rintro value other ⟨turn, turn'⟩ ⟨later, sooner, pair | pair⟩
    · exact turn'.2 later pair
    · exact turn.2 later pair
  have symmetric : Std.Symm fun value other : α =>
      ¬ (least other value ∧ least value other ∧
        (value = first ∧ other = second ∨ value = second ∧ other = first)) :=
    ⟨fun value other apart both => apart ⟨both.2.1, both.1, by tauto⟩⟩
  exact apart.forall ((List.mem_insertionSort least).mpr member)
    ((List.mem_insertionSort least).mpr member') distinct ⟨tied', tied, .inl ⟨rfl, rfl⟩⟩

end Sorting

end Foundation
end Scrum4Me
