import Mathlib.Algebra.Order.BigOperators.Group.List
import Mathlib.Algebra.Order.Ring.Nat
import Mathlib.Data.List.Nodup

/-!
# First occurrences

`firstOccurrences` keeps of the elements with one key the first, and every element
that has no key. The weight of a list is the weight of its first occurrences exactly
if what is left out weighs nothing.
-/

namespace Scrum4Me
namespace Foundation

variable [DecidableEq κ]

/-- The elements whose key has not been seen. -/
def unseenOccurrences (key : α → Option κ) (seen : List κ) : List α → List α
  | [] => []
  | element :: rest =>
      (key element).elim (element :: unseenOccurrences key seen rest) fun name =>
        if name ∈ seen then unseenOccurrences key seen rest
        else element :: unseenOccurrences key (name :: seen) rest

def firstOccurrences (key : α → Option κ) (elements : List α) : List α :=
  unseenOccurrences key [] elements

variable {key : α → Option κ} {seen : List κ} {element : α} {rest elements : List α}

theorem unseenOccurrences_of_none (anonymous : key element = none) :
    unseenOccurrences key seen (element :: rest) = element :: unseenOccurrences key seen rest := by
  rw [unseenOccurrences, anonymous, Option.elim_none]

theorem unseenOccurrences_of_seen
    {name : κ} (named : key element = some name) (known : name ∈ seen) :
    unseenOccurrences key seen (element :: rest) = unseenOccurrences key seen rest := by
  rw [unseenOccurrences, named, Option.elim_some, if_pos known]

theorem unseenOccurrences_of_unseen
    {name : κ} (named : key element = some name) (unknown : name ∉ seen) :
    unseenOccurrences key seen (element :: rest) =
      element :: unseenOccurrences key (name :: seen) rest := by
  rw [unseenOccurrences, named, Option.elim_some, if_neg unknown]

theorem unseenOccurrences_sublist (seen : List κ) (elements : List α) :
    (unseenOccurrences key seen elements).Sublist elements := by
  induction elements generalizing seen with
  | nil => exact List.Sublist.slnil
  | cons element rest ih =>
    cases named : key element with
    | none =>
      rw [unseenOccurrences_of_none named]
      exact (ih seen).cons_cons element
    | some name =>
      by_cases known : name ∈ seen
      · rw [unseenOccurrences_of_seen named known]
        exact (ih seen).cons element
      · rw [unseenOccurrences_of_unseen named known]
        exact (ih (name :: seen)).cons_cons element

theorem firstOccurrences_sublist (elements : List α) :
    (firstOccurrences key elements).Sublist elements :=
  unseenOccurrences_sublist [] elements

/-- Elements with one key weigh nothing after the first of them. -/
def WeightlessRepeats (key : α → Option κ) (weight : α → Nat) (elements : List α) : Prop :=
  elements.Pairwise fun first second =>
    key first = none ∨ key first ≠ key second ∨ weight second = 0

instance (key : α → Option κ) (weight : α → Nat) (elements : List α) :
    Decidable (WeightlessRepeats key weight elements) := by
  unfold WeightlessRepeats
  infer_instance

theorem sum_unseenOccurrences_le (weight : α → Nat) (seen : List κ) (elements : List α) :
    ((unseenOccurrences key seen elements).map weight).sum ≤ (elements.map weight).sum :=
  ((unseenOccurrences_sublist seen elements).map weight).sum_le_sum fun _ _ => Nat.zero_le _

/-- What is left out weighs nothing exactly if what has been seen weighs nothing, and
what is repeated. -/
theorem sum_unseenOccurrences_iff (weight : α → Nat) (seen : List κ) (elements : List α) :
    ((unseenOccurrences key seen elements).map weight).sum = (elements.map weight).sum ↔
      (∀ element ∈ elements, ∀ name ∈ seen, key element = some name → weight element = 0) ∧
        WeightlessRepeats key weight elements := by
  induction elements generalizing seen with
  | nil => simp [unseenOccurrences, WeightlessRepeats]
  | cons element rest ih =>
    unfold WeightlessRepeats at ih ⊢
    rw [List.pairwise_cons, List.forall_mem_cons]
    cases named : key element with
    | none =>
      rw [unseenOccurrences_of_none named, List.map_cons, List.sum_cons, List.map_cons,
        List.sum_cons, Nat.add_left_cancel_iff, ih]
      simp
    | some name =>
      by_cases known : name ∈ seen
      · rw [unseenOccurrences_of_seen named known, List.map_cons, List.sum_cons]
        have bound := @sum_unseenOccurrences_le _ _ _ key weight seen rest
        have split : ((unseenOccurrences key seen rest).map weight).sum =
            weight element + (rest.map weight).sum ↔
              weight element = 0 ∧ ((unseenOccurrences key seen rest).map weight).sum =
                (rest.map weight).sum := by
          omega
        rw [split, ih]
        constructor
        · rintro ⟨weightless, seenWeightless, repeats⟩
          refine ⟨⟨fun _ _ _ => weightless, seenWeightless⟩, fun later member => ?_,
            repeats⟩
          by_cases same : some name = key later
          · exact .inr (.inr (seenWeightless later member name known same.symm))
          · exact .inr (.inl same)
        · rintro ⟨⟨weightless, seenWeightless⟩, -, repeats⟩
          exact ⟨weightless name known rfl, seenWeightless, repeats⟩
      · rw [unseenOccurrences_of_unseen named known, List.map_cons, List.sum_cons,
          List.map_cons, List.sum_cons, Nat.add_left_cancel_iff, ih]
        constructor
        · rintro ⟨seenWeightless, repeats⟩
          refine ⟨⟨fun other inSeen same => ?_, fun later member other inSeen =>
            seenWeightless later member other (List.mem_cons_of_mem _ inSeen)⟩,
            fun later member => ?_, repeats⟩
          · cases same
            exact absurd inSeen known
          · by_cases same : some name = key later
            · exact .inr (.inr (seenWeightless later member name List.mem_cons_self same.symm))
            · exact .inr (.inl same)
        · rintro ⟨⟨-, seenWeightless⟩, after, repeats⟩
          refine ⟨fun later member other inSeen same => ?_, repeats⟩
          rcases List.mem_cons.mp inSeen with rfl | older
          · rcases after later member with missing | differs | weightless
            · cases missing
            · exact absurd same.symm differs
            · exact weightless
          · exact seenWeightless later member other older same

theorem sum_firstOccurrences_iff (weight : α → Nat) (elements : List α) :
    ((firstOccurrences key elements).map weight).sum = (elements.map weight).sum ↔
      WeightlessRepeats key weight elements := by
  rw [firstOccurrences, sum_unseenOccurrences_iff]
  simp

/-- A filter keeps the weight exactly if what it leaves out weighs nothing. -/
theorem sum_filter_iff (weight : α → Nat) (matching : α → Bool) (elements : List α) :
    ((elements.filter matching).map weight).sum = (elements.map weight).sum ↔
      ∀ element ∈ elements, matching element = true ∨ weight element = 0 := by
  induction elements with
  | nil => simp
  | cons element rest ih =>
    rw [List.forall_mem_cons, ← ih, List.map_cons, List.sum_cons]
    have bound : ((rest.filter matching).map weight).sum ≤ (rest.map weight).sum :=
      ((List.filter_sublist).map weight).sum_le_sum fun _ _ => Nat.zero_le _
    cases matched : matching element with
    | true =>
      rw [List.filter_cons_of_pos matched, List.map_cons, List.sum_cons]
      simp
    | false =>
      rw [List.filter_cons_of_neg (by simp [matched])]
      simp only [Bool.false_eq_true, false_or]
      omega

end Foundation
end Scrum4Me
