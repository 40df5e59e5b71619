import Scrum4Me.Foundation.JsonSizes
import Scrum4Me.LinkedPlans.Outcome

/-!
# The size of a plan

Room is kept for the labels of everything that is collected. Each label is listed at most
once at the end, so that what fits beside this room fits in the budget.
-/

namespace Scrum4Me
namespace LinkedPlans

open Foundation

/-! ## Lists of labels -/

theorem size_texts (labels : List Text) :
    (texts labels).size = (labels.map fun label => (Text.quoteUnits label).length + 2).sum +
        (labels.length - 1) + 2 := by
  rw [texts, JsonTree.size_array, List.map_map, List.length_map]
  congr 4
  exact funext fun label => JsonTree.size_string label

/-- Two lists that are taken out of a list need no more room than it. -/
theorem size_texts_le {first second labels : List Text} (among : (first ++ second).Subperm labels) :
    (texts first).size + (texts second).size ≤ (texts labels).size + 2 := by
  obtain ⟨listed, same, sublist⟩ := among
  have total := (same.map fun label => (Text.quoteUnits label).length + 2).sum_eq
  have most := (sublist.map fun label => (Text.quoteUnits label).length + 2).sum_le_sum
    (fun _ _ => Nat.zero_le _)
  have length := same.length_eq
  have fewer := sublist.length_le
  rw [List.map_append, List.sum_append] at total
  rw [List.length_append] at length
  rw [size_texts, size_texts, size_texts]
  omega

/-- The two lists are counted with the brackets that stand for them while the plan is filled. -/
theorem size_listed (plan : LinkedPlan) (references omitted : List Text) :
    { plan with references := references, omitted := omitted }.size + 4 =
      { plan with references := [], omitted := [] }.size +
        ((texts references).size + (texts omitted).size) := by
  have none' : (texts []).size = 2 := rfl
  have sizes : ∀ plan : LinkedPlan, plan.size = plan.json.size := fun _ => rfl
  simp only [sizes, LinkedPlan.json, JsonTree.size_object, List.map_cons, List.sum_cons,
    List.map_nil, List.sum_nil, List.length_cons, List.length_nil, none']
  omega

/-! ## Contents -/

section Contents

variable {source : PlanSource} {contents contents' : Contents}

theorem size_le (stories : List.Forall₂ (fun entry entry' => entry.2.json.size ≤ entry'.2.json.size)
      contents.entries contents'.entries)
    (docs : List.Forall₂ (fun doc doc' => doc.json.size ≤ doc'.json.size)
      contents.docs contents'.docs) :
    size source contents ≤ size source contents' := by
  have storySizes : ((contents.entries.map Prod.snd).map fun story => story.json.size).sum ≤
      ((contents'.entries.map Prod.snd).map fun story => story.json.size).sum := by
    rw [List.map_map, List.map_map]
    exact List.Forall₂.sum_le_sum (List.forall₂_map_left_iff.mpr
      (List.forall₂_map_right_iff.mpr stories))
  have docSizes : (contents.docs.map fun doc => doc.json.size).sum ≤
      (contents'.docs.map fun doc => doc.json.size).sum :=
    List.Forall₂.sum_le_sum (List.forall₂_map_left_iff.mpr (List.forall₂_map_right_iff.mpr docs))
  have storyCount := stories.length_eq
  have docCount := docs.length_eq
  have sizes : ∀ plan : LinkedPlan, plan.size = plan.json.size := fun _ => rfl
  have storyJson : ∀ stories : List LinkedPlanStory,
      (JsonTree.array (stories.map LinkedPlanStory.json)).size =
        (stories.map fun story => story.json.size).sum + (stories.length - 1) + 2 := by
    intro stories
    rw [JsonTree.size_array, List.map_map, List.length_map]
    rfl
  have docJson : ∀ docs : List LinkedPlanDoc, (JsonTree.array (docs.map LinkedPlanDoc.json)).size =
        (docs.map fun doc => doc.json.size).sum + (docs.length - 1) + 2 := by
    intro docs
    rw [JsonTree.size_array, List.map_map, List.length_map]
    rfl
  simp only [size, sizes, Contents.plan, LinkedPlan.json, JsonTree.size_object, List.map_cons,
    List.sum_cons, List.map_nil, List.sum_nil, List.length_cons, List.length_nil, storyJson,
    docJson, List.length_map]
  omega

/-- The text of an item is quoted in the plan. -/
theorem size_put_le {item : Item} {text text' : Text}
    (shorter : (Text.quoteUnits text).length ≤ (Text.quoteUnits text').length)
    (alike : ∀ row, item = .doc row →
      (text = docBase (row.content.getD []) ↔ text' = docBase (row.content.getD []))) :
    size source (contents.put item (some text)) ≤ size source (contents.put item (some text')) := by
  have same : ∀ entries : List (Text × LinkedPlanStory),
      List.Forall₂ (fun entry entry' => entry.2.json.size ≤ entry'.2.json.size) entries entries :=
    fun entries => List.forall₂_same.mpr fun _ _ => Nat.le_refl _
  have sameDocs : List.Forall₂ (fun doc doc' : LinkedPlanDoc => doc.json.size ≤ doc'.json.size)
      contents.docs contents.docs := List.forall₂_same.mpr fun _ _ => Nat.le_refl _
  have quoted : (JsonTree.string text).size ≤ (JsonTree.string text').size := by
    rw [JsonTree.size_string, JsonTree.size_string]
    omega
  cases item with
  | story row =>
    refine size_le (List.rel_append (same _) (.cons ?_ .nil)) sameDocs
    simp only [LinkedPlanStory.json, JsonTree.size_object, text?, Option.elim_some,
      List.map_append, List.map_cons, List.map_nil, List.sum_append, List.sum_cons,
      List.length_append, List.length_cons]
    omega
  | task storyKey row =>
    refine size_le ?_ sameDocs
    refine List.forall₂_map_left_iff.mpr (List.forall₂_map_right_iff.mpr
      (List.forall₂_same.mpr fun entry _ => ?_))
    split
    · simp only [LinkedPlanStory.json, LinkedPlanTask.json, JsonTree.size_object,
        JsonTree.size_array, text?, Option.elim_some, List.map_append, List.map_cons,
        List.map_nil, List.sum_append, List.sum_cons, List.sum_nil, List.length_append,
        List.length_cons, List.length_map]
      omega
    · exact Nat.le_refl _
  | doc row =>
    refine size_le (same _) (List.rel_append sameDocs (.cons ?_ .nil))
    have flags : decide (fieldMax < (row.content.getD []).length ∨
          text ≠ docBase (row.content.getD [])) =
        decide (fieldMax < (row.content.getD []).length ∨ text' ≠ docBase (row.content.getD [])) :=
      decide_eq_decide.mpr (or_congr Iff.rfl (not_congr (alike row rfl)))
    simp only [LinkedPlanDoc.json, JsonTree.size_object, List.map_cons, List.map_nil,
      List.sum_cons, List.length_cons, Option.getD_some, flags]
    omega

end Contents

/-- A beginning does not fit though a longer one does: it ends inside a pair. -/
theorem splits_of_unfit {source : PlanSource} {limit : Int} {whole : List Item} {item : Item}
    {text : Text} {short long : Nat} (known : item.text? = some text)
    (less : short ≤ long) (beginning : long < text.length)
    (fitting : cutFits source limit whole item text long = true)
    (unfit : cutFits source limit whole item text short = false) :
    Text.Splits text short := by
  by_contra apart
  have notLow : ∀ low ∈ item.ending.head?, ¬ Text.Low low := by
    cases item with
    | doc row => exact fun low none' => absurd none' (by simp [Item.ending])
    | _ =>
      rintro low first
      cases first
      decide
  have shorter := Text.quoteUnits_take_le less apart notLow
  have alike : ∀ row, item = .doc row →
      (text.take short ++ item.ending = docBase (row.content.getD []) ↔
        text.take long ++ item.ending = docBase (row.content.getD [])) := by
    rintro row rfl
    rw [Item.text?, Option.map_eq_some_iff] at known
    obtain ⟨content, found, rfl⟩ := known
    have content' : row.content = some content := (Option.filter_eq_some_iff.mp found).1
    have differs : ∀ length, length ≤ long →
        (docBase content).take length ++ [] ≠ docBase content := by
      intro length small equal
      have lengths := congrArg List.length equal
      rw [List.append_nil, List.length_take] at lengths
      omega
    rw [content', Option.getD_some]
    exact iff_of_false (differs short less) (differs long (Nat.le_refl _))
  have smaller := @size_put_le source (contentsOf whole) _ _ _ shorter alike
  rw [cutFits, fits, decide_eq_true_eq] at fitting
  rw [cutFits, fits, decide_eq_false_iff_not] at unfit
  omega

end LinkedPlans
end Scrum4Me
