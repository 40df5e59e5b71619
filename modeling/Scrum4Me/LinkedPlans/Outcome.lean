import Scrum4Me.LinkedPlans.Filling

/-!
# What becomes of what is collected

The items before some point are placed as a whole, the next may be cut, all others are
left out. What is placed fits.
-/

namespace Scrum4Me
namespace LinkedPlans

open Foundation

/-! ## The order of items -/

theorem mem_tasks {collected : Collected} {explicitly : Bool} {item : Item}
    (member : item ∈ collected.tasks explicitly) :
    ∃ story ∈ collected.stories, ∃ task ∈ story.tasks, item = .task story.key task := by
  obtain ⟨story, known, inStory⟩ := List.mem_flatMap.mp member
  obtain ⟨task, chosen, rfl⟩ := List.mem_map.mp inStory
  exact ⟨story, known, task, List.mem_of_mem_filter chosen, rfl⟩

/-- The stories stand before all tasks. -/
theorem storiesFirst_items (collected : Collected) : StoriesFirst collected.items := by
  have keys : (collected.stories.map Item.story).filterMap Item.storyKey? =
      collected.stories.map StoryRow.key := by
    rw [List.filterMap_map]
    exact congrFun (@List.filterMap_eq_map _ _ StoryRow.key) collected.stories
  rintro before item rest split storyKey row rfl
  have inKeys : storyKey ∈ collected.stories.map StoryRow.key := by
    have member : Item.task storyKey row ∈ collected.items := by
      rw [split]
      exact List.mem_append_right _ List.mem_cons_self
    simp only [Collected.items, List.mem_append, List.mem_map, reduceCtorEq, and_false,
      exists_false, false_or] at member
    obtain ⟨story, known, task, -, same⟩ : ∃ story ∈ collected.stories, ∃ task ∈ story.tasks,
        Item.task storyKey row = .task story.key task :=
      member.elim mem_tasks mem_tasks
    cases same
    exact List.mem_map_of_mem known
  rw [Collected.items] at split
  rcases List.append_eq_append_iff.mp split with ⟨more, rfl, -⟩ | ⟨more, stories, tail⟩
  · rw [List.filterMap_append, keys]
    exact List.mem_append_left _ inKeys
  · cases more with
    | nil =>
      rw [← List.append_nil before, ← stories, keys]
      exact inKeys
    | cons next more =>
      obtain ⟨rfl, -⟩ := List.cons.inj tail
      have member : Item.task storyKey row ∈ collected.stories.map Item.story := by
        rw [stories]
        exact List.mem_append_right _ List.mem_cons_self
      obtain ⟨story, -, same⟩ := List.mem_map.mp member
      cases same

section Outcome

variable (source : PlanSource) (collected : Collected)

/-- The items before, the one that is cut and those that are left out. -/
inductive Filled : List Item → Option Cut → List Item → Prop
  | all (allWhole : AllWhole source collected.limit [] collected.items) :
      Filled collected.items none []
  | cut {before rest : List Item} {item : Item} {text : Text}
      (split : collected.items = before ++ item :: rest)
      (allWhole : AllWhole source collected.limit [] before)
      (cutHere : CutHere source collected.limit (filled before) item text) :
      Filled before (some ⟨item, cutText source collected.limit (filled before) item text⟩) rest
  | left {before rest : List Item} {item : Item} (split : collected.items = before ++ item :: rest)
      (allWhole : AllWhole source collected.limit [] before)
      (unfit : ¬ Whole source collected.limit (filled before) item)
      (uncut : ¬ ∃ text, CutHere source collected.limit (filled before) item text) :
      Filled before none (item :: rest)

/-- The plan is filled so. -/
theorem exists_filled :
    ∃ before cut left full, Filled source collected before cut left ∧
      finished source collected = { fullDraft (filled before) cut left with full := full } := by
  have start : Draft.start = draftOf (filled []) := rfl
  rcases exists_first source collected.limit [] collected.items with
    allWhole | ⟨before, item, rest, split, allWhole, unfit⟩
  · refine ⟨_, _, _, false, .all allWhole, ?_⟩
    have first : StoriesFirst ([] ++ collected.items ++ []) := by
      rw [List.nil_append, List.append_nil]
      exact storiesFirst_items collected
    rw [finished, start, foldl_whole first allWhole, List.nil_append, fullDraft, placedItems,
      Option.map_none, Option.toList_none, List.append_nil]
    rfl
  · have first := storiesFirst_items collected
    have placed := first.filled split
    have wholeFirst : StoriesFirst ([] ++ before ++ item :: rest) := by
      rw [List.nil_append, ← split]
      exact first
    rw [finished, start, split, List.foldl_append, foldl_whole wholeFirst allWhole,
      List.foldl_cons, List.nil_append]
    by_cases cuts : ∃ text, CutHere source collected.limit (filled before) item text
    · obtain ⟨text, cutHere⟩ := cuts
      refine ⟨_, _, _, true, .cut split allWhole cutHere, ?_⟩
      rw [add_cut placed cutHere, foldl_full]
      rfl
    · refine ⟨_, _, _, true, .left split allWhole unfit cuts, ?_⟩
      rw [add_left placed unfit cuts, foldl_full]
      rfl

variable {source collected} {before left : List Item} {cut : Option Cut}

theorem Filled.split (outcome : Filled source collected before cut left) :
    collected.items = before ++ ((cut.map Cut.item).toList ++ left) := by
  cases outcome with
  | all allWhole => simp
  | cut split allWhole cutHere => exact split
  | left split allWhole unfit uncut => exact split

theorem Filled.allWhole (outcome : Filled source collected before cut left) :
    AllWhole source collected.limit [] before := by
  cases outcome <;> assumption

variable {limit : Int} {whole : List Item}

theorem CutHere.not_whole {item : Item} {text : Text}
    (cutHere : CutHere source limit whole item text) :
    ¬ Whole source limit whole item := by
  rintro ⟨-, empty | fitting⟩
  · rw [cutHere.filled] at empty
    cases empty
  · rw [cutHere.known, cutHere.large] at fitting
    cases fitting

theorem fits_allWhole {items : List Item} (allWhole : AllWhole source limit whole items)
    (before : whole ≠ [] → fits source limit (contentsOf whole) = true)
    (placed : whole ++ filled items ≠ []) :
    fits source limit (contentsOf (whole ++ filled items)) = true := by
  induction items generalizing whole with
  | nil =>
    rw [filled, List.filter_nil, List.append_nil] at placed ⊢
    exact before placed
  | cons item items ih =>
    obtain ⟨holds, rest⟩ := allWhole
    have split : filled (item :: items) = filled [item] ++ filled items :=
      filled_append [item] items
    rw [split, ← List.append_assoc] at placed ⊢
    refine ih rest ?_ placed
    by_cases empty : item.empty = true
    · have none' : filled [item] = [] := by simp [filled, empty]
      rw [none', List.append_nil]
      exact before
    · have single : filled [item] = [item] := by simp [filled, empty]
      rw [single, contentsOf_append]
      exact fun _ => holds.2.resolve_left empty

/-- The length to which a text is cut fits. -/
theorem CutHere.fits_cut {item : Item} {text : Text}
    (cutHere : CutHere source limit whole item text) :
    fits source limit
      ((contentsOf whole).put item (some (cutText source limit whole item text))) = true := by
  have long := cutHere.long
  exact (bisect_fits (by omega) cutHere.useful).1

theorem Filled.fits (outcome : Filled source collected before cut left)
    (placed : placedItems (filled before) cut ≠ []) :
    fits source collected.limit (cutContents (filled before) cut) = true := by
  have whole : filled before ≠ [] →
      LinkedPlans.fits source collected.limit (contentsOf (filled before)) = true :=
    fits_allWhole outcome.allWhole (fun none' => absurd rfl none')
  cases outcome with
  | cut split allWhole cutHere => exact cutHere.fits_cut
  | _ => exact whole (by simpa [placedItems] using placed)

end Outcome

end LinkedPlans
end Scrum4Me
